import Conduit.Proofs.Stack.Recorded

/-!
# Runs with a log

What the stack does, with a log of what happens inside it: events that come into the queue and leave it, callbacks that
begin and return, layers that say farewell. A run that halts has a log as well, of what happened until then. The log
plays no part in what is done.

* `Incident`: what is logged.
* `Traced.exec`: answers a request, and logs what happens meanwhile.
* `Traced.Leads`: a log that takes an observer from one state to another. Its rules take a run apart.
-/

namespace Conduit

/-- What is logged of a run. -/
inductive Incident (H : Host)
  /-- An event has come to the end of the queue. -/
  | queued (q : Queued H)
  /-- The pump begins to work off the queue. -/
  | began
  /-- The pump has taken an event from the queue, and delivers it. -/
  | taken (q : Queued H)
  /-- The event that was taken last is delivered. -/
  | delivered
  /-- The pump ceases. -/
  | ceased
  /-- A callback begins, while the slots are these. -/
  | called (call : Call) (s : Slots H)
  /-- The callback that began last returns. -/
  | returned
  /-- A layer is called for that is running. -/
  | reentered (id : Handle)
  /-- A layer returns and finds its connection gone. -/
  | vanished (id : Handle)
  /-- A connection comes. -/
  | born (id : Handle)
  /-- The layer of a connection begins its farewell. -/
  | farewell (id : Handle)
  /-- A connection goes. -/
  | freed (id : Handle)

/-- A computation over the world with a log of it. -/
def Traced (H : Host) (α : Type) := World H → EStateM.Result Halt (World H) α × List (Incident H)

namespace Traced

open Stack

variable {H : Host} {α β : Type}

instance : Monad (Traced H) where
  pure a := fun w => (.ok a w, [])
  bind x f := fun w =>
    match x w with
    | (.ok a w', t) => ((f a w').1, t ++ (f a w').2)
    | (.error h w', t) => (.error h w', t)

theorem bind_apply (x : Traced H α) (f : α → Traced H β) (w : World H) :
    (x >>= f) w =
      match x w with
      | (.ok a w', t) => ((f a w').1, t ++ (f a w').2)
      | (.error h w', t) => (.error h w', t) := rfl

/-- A computation of which nothing is logged. -/
def lift (x : Exec H α) : Traced H α := fun w => (x w, [])

/-- Adds to the log. -/
def mark (t : List (Incident H)) : Traced H Unit := fun w => (.ok () w, t)

/-- The computation without its log. -/
def erase (x : Traced H α) : Exec H α := fun w => (x w).1

/-- The log of a run. -/
def log (x : Traced H α) (w : World H) : List (Incident H) := (x w).2

/-! ## What is logged -/

variable (b : Behaviour H)

/-- How requests are answered. -/
abbrev Answers (H : Host) := (r : Req H) → Traced H r.Ans

/-- A method of a layer at work; the flag says whether the connection is to be freed afterwards. -/
abbrev Running (H : Host) := StateT Bool (Traced H)

/-- Lets an event wait for delivery. -/
def enqueue (source : Handle) (e : Event) : Traced H Unit := do
  let s ← lift getSlots
  -- none, if the event is lost
  mark (((s.enqueue source e).queue.drop s.queue.length).map .queued)
  lift (Stack.enqueue source e)

/-- Adds a connection. -/
def insert (layer : Layer H) : Traced H Handle := do
  mark [.born (← lift getSlots).nextHandle]
  lift (Stack.insert b layer)

/-- Adds a connection over an endpoint, which learns whom it belongs to. -/
def openPcb (p : PcbRef H.Pcb) : Traced H Handle := do
  let s ← lift getSlots
  lift (performPcb b p (.attach s.nextHandle))
  insert b (.plain (Plain.ofPcb p))

/-- Puts a layer above a connection that has none above it. -/
def wrap (inner : Handle) (layer : Layer H) : Traced H (Except Fault Handle) := do
  match ← lift (lookup inner) with
  | none => pure (.error .invalidArgument)
  | some e =>
    if e.outer.isSome then pure (.error (.invalidState "inner connection already wrapped"))
    else
      let outer ← insert b layer
      lift (modifySlots fun s => s.link inner outer)
      lift (note b (.debug "layer stacked" [outer.field, ("inner", inner.text)]))
      pure (.ok outer)

/-! ## Layers -/

/-- Answers the requests of a layer. -/
def answerLayer (answers : Answers H) (me : Handle) : (r : Layer.Req H) → Running H r.Ans
  | .ask id o => answers (.ask id o)
  | .emit e => enqueue (H := H) me e
  | .fail reason => do
    enqueue (H := H) me (.error reason)
    set true
  | .cover inner l => answers (.wrap inner (.secure l))
  -- the others lead to no requests
  | r => fun flag => lift ((Stack.answerLayer b Recorded.unasked me r).run flag)

/-- Answers the requests of a layer of the application's own. -/
def answerCustom (answers : Answers H) (me : Handle) :
    (r : (Layer.customIo H).Req) → Running H ((Layer.customIo H).Ans r)
  | .inl r => answerLayer b answers me r
  | .inr r => answers r

/-- Runs a method of a layer; the answer is the layer as it is afterwards, and its reply. -/
def runMethod (answers : Answers H) (me : Handle) (m : Method) : Layer H → Running H (Layer H × m.Reply)
  | .plain s => do
    let (r, s) ← ((Plain.step me m).run s).run (answerLayer b answers me)
    pure (.plain s, r)
  | .secure s => do
    let (r, s) ← ((Secure.step b.engine me m).run s).run (answerLayer b answers me)
    pure (.secure s, r)
  | .passthrough name => do
    let (r, _) ← ((Layer.forward m : Layer.Act H Unit m.Reply).run ()).run (answerLayer b answers me)
    pure (.passthrough name, r)
  | .custom l => do
    let (l, r) ← (b.layer l me m).run (answerCustom b answers me)
    pure (.custom l, r)

/-- Takes the layer of a connection out of its slot, runs a method of it, and puts it back. -/
def withLayer (answers : Answers H) (free : Handle → Traced H Unit) (id : Handle) (m : Method) :
    Traced H (Except Fault m.Reply) := do
  match ← lift (lookup id) with
  | none => pure (.error .invalidArgument)
  | some e =>
    match e.layer with
    | none =>
      mark [.reentered id]
      pure (.error (.invalidState "layer re-entered while running"))
    | some layer =>
      lift (modifySlots fun s => { s.update id fun e => { e with layer := none } with depth := s.depth + 1 })
      let ((layer, reply), release) ← (runMethod b answers id m layer).run false
      lift (modifySlots fun s => { s with depth := s.depth - 1 })
      -- the method may have done away with its own connection
      if (← lift getSlots).isAlive id then
        lift (modifySlots fun s => s.update id fun e => { e with layer := some layer })
        if release then free id
      else
        mark [.vanished id]
        lift (note b (.warn "connection vanished while its layer was running" [id.field]))
      pure (.ok reply)

/-- Lets a layer say farewell. -/
def dealloc (answers : Answers H) (id : Handle) : Traced H Unit := do
  match (← lift (lookup id)).bind (·.layer) with
  | none => pure ()
  | some layer =>
    mark [.farewell id]
    lift (modifySlots fun s => { s.update id fun e => { e with layer := none } with depth := s.depth + 1 })
    let _ ← (runMethod b answers id .dealloc layer).run false
    lift (modifySlots fun s => { s with depth := s.depth - 1 })

/-- Frees a connection. The one above loses it, the one below is aborted and freed as well. -/
def freeEntry (answers : Answers H) : Nat → Handle → Traced H Unit
  | 0, _ => lift (throw .outOfFuel)
  | k + 1, id => do
    dealloc b answers id
    match ← lift (lookup id) with
    | none => pure ()
    | some e =>
      mark [.freed id]
      lift (modifySlots fun s => s.vacate id)
      match e.outer with
      | none => pure ()
      | some outer =>
        lift (modifySlots fun s => s.update outer fun o => if o.inner = some id then { o with inner := none } else o)
      match e.inner with
      | none => pure ()
      | some inner =>
        -- the one below may have lost this one while it said farewell
        if (← lift getSlots).outer? inner = some id then
          lift (modifySlots fun s => (s.update inner fun i => { i with outer := none }).clearCallbacks inner)
          let _ ← withLayer b answers (freeEntry answers k) inner (.op .abort)
          freeEntry answers k inner
      lift (note b (.trace "connection freed" [id.field, ("layer", e.name)]))

/-! ## Events -/

/-- Calls a callback. -/
def callback (answers : Answers H) (id : Handle) (k : CallbackKind) (call : Call) (absent : Traced H Outcome) :
    Traced H Outcome := do
  match ← lift (lookup id) with
  | none => absent
  | some e =>
    match e.callbacks.get k with
    | none => absent
    | some code =>
      lift (modifySlots fun s => s.takeCallback id k)
      mark [.called call (← lift getSlots)]
      let (code, verdict) ← (b.callback code call).run answers
      mark [.returned]
      lift (modifySlots fun s => s.restoreCallback id k e.epoch code)
      pure verdict

variable (answers : Answers H) (free : Handle → Traced H Unit)

/-- Tells a layer what has become of its last delivery. -/
def settleRecv (source : Handle) (verdict : Outcome) : Traced H Unit := do
  let _ ← withLayer b answers free source (.settled verdict)

/-- Hands an event to the layer above its source. -/
def deliverToLayer (outer source : Handle) (event : Event) : Traced H Unit := do
  let verdict ← withLayer b answers free outer (.op (.lower event))
  let verdict : Outcome := verdict.bind id
  match event, verdict with
  | .accept new, .error f =>
    lift (note b (.warn "outer layer refused accepted connection"
      [("listener", outer.text), ("conn", new.text), f.field]))
    answers (.ask new .abort)
  | .recv _, v => settleRecv b answers free source v
  | _, _ => pure ()

/-- Hands an event to the application. -/
def deliverToApp (me : Handle) : Event → Traced H Unit
  | .accept new => do
    match ← callback b answers me .accept (.accept me new) (pure (.error .invalidArgument)) with
    | .ok () => pure ()
    | .error f =>
      lift (note b (.warn "accept refused, aborting new connection"
        [("listener", me.text), ("conn", new.text), f.field]))
      answers (.ask new .abort)
  | .connected r => do
    let _ ← callback b answers me .connected (.connected me r) (pure (.ok ()))
  | .recv data => do
    let verdict ← callback b answers me .recv (.recv me (some data)) do
      lift (note b (.trace "no recv callback, acknowledging and dropping" [me.field, ("len", toString data.length)]))
      answers (.ask me (.recved data.length))
      pure (.ok ())
    settleRecv b answers free me verdict
  | .eof => do
    let _ ← callback b answers me .recv (.recv me none) (pure (.ok ()))
  | .sent len => do
    let _ ← callback b answers me .sent (.sent me len) (pure (.ok ()))
  | .poll => do
    let _ ← callback b answers me .poll (.poll me) (pure (.ok ()))
  | .error _ => pure ()

/-- Hands an event to whom it concerns. -/
def deliver (q : Queued H) : Traced H Unit := do
  match q.route with
  | .sink code =>
    match q.event with
    | .error reason =>
      lift (note b (.debug "connection terminated" [q.source.field, reason.field, ("code", reason.code)]))
      match code with
      | none => pure ()
      | some code =>
        mark [.called (.err reason) (← lift getSlots)]
        let _ ← (b.callback code (.err reason)).run answers
        mark [.returned]
    | _ => pure ()
  | .layer outer => deliverToLayer b answers free outer q.source q.event
  | .resolve =>
    match ← lift (lookup q.source) with
    | none =>
      lift (note b (.trace "event dropped, connection already freed" [q.source.field, ("event", q.event.label)]))
    | some e =>
      match e.outer with
      | some outer => deliverToLayer b answers free outer q.source q.event
      | none => deliverToApp b answers free q.source q.event

/-- Works off the queue. -/
def drain : Nat → Traced H Unit
  | 0 => lift (throw .outOfFuel)
  | k + 1 => do
    match (← lift getSlots).queue with
    | [] => pure ()
    | q :: rest =>
      mark [.taken q]
      lift (modifySlots fun s => { s with queue := rest })
      deliver b answers free q
      mark [.delivered]
      drain k

/-- Works off the queue, unless a layer is running or that is being done already. -/
def pump (k : Nat) : Traced H Unit := do
  let s ← lift getSlots
  if 0 < s.depth || s.pumping then pure ()
  else
    mark [.began]
    lift (modifySlots fun s => { s with pumping := true })
    drain b answers free k
    lift (modifySlots fun s => { s with pumping := false })
    mark [.ceased]

/-! ## Requests -/

/-- Runs a method for the application, and delivers what it has caused. -/
def call (k : Nat) (id : Handle) (o : Op) : Traced H o.Reply := do
  let r ← withLayer b answers free id (.op o)
  pump b answers free k
  match r with
  | .ok r => pure r
  | .error f => pure (o.refused f)

/-- An operation on a connection. -/
def operate (k : Nat) (id : Handle) : (o : Op) → Traced H o.Reply
  | .abort => do
    if (← lift getSlots).isAlive id then
      lift (note b (.debug "abort requested" [id.field]))
      let _ ← withLayer b answers free id (.op .abort)
      if (← lift getSlots).isAlive id then
        enqueue id (.error .aborted)
        free id
      pump b answers free k
  | .setPoll interval => do
    if (← lift getSlots).isAlive id then
      lift (modifySlots fun s => s.update id fun e => { e with pollInterval := interval })
      call b answers free k id (.setPoll interval)
  | .lower e => do
    lift (note b (.trace "lower event injected" [id.field, ("event", e.label)]))
    call b answers free k id (.lower e)
  | o => call b answers free k id o

/-- What a TCP engine reports about an endpoint. -/
def dispatch (id : Handle) : Arrival H.Pcb → Traced H Outcome
  | .event e => answers (.ask id (.lower e))
  | .accepted p => do
    if (← lift getSlots).isAlive id then
      let new ← openPcb b p
      match ← answers (.ask id (.lower (.accept new))) with
      | .ok () => pure (.ok ())
      | .error f =>
        answers (.ask new .abort)
        pure (.error f)
    else
      lift (note b (.debug "listener gone, resetting accepted pcb" [("listener", id.text)]))
      lift (performPcb b p .abort)
      pure (.error .invalidArgument)

/-- One step of the loopback net. -/
def stepNet : Traced H Bool := do
  match (← lift get).net.next with
  | none => pure false
  | some r =>
    lift (modify fun w => { w with net := r.net })
    lift (notes b r.notes)
    let (i, delivery) := r.value
    let owner := (r.net.pcb i).owner
    match delivery, owner with
    | .nothing, _ => pure ()
    | .accept new, some listener => let _ ← dispatch b answers listener (.accepted (.loopback new))
    | .accept new, none => lift (performPcb b (.loopback new) .abort)
    | .reset, _ =>
      lift (modify fun w => { w with net := w.net.update i fun p => { p with owner := none } })
      match owner with
      | none => pure ()
      | some id =>
        lift (note b (.debug "connection reset" [id.field]))
        let _ ← dispatch b answers id (.event (.error .reset))
    | .event e, some id =>
      match ← dispatch b answers id (.event e) with
      | .ok () => pure ()
      | .error f => lift (note b (.trace "event not delivered" [id.field, f.field]))
    | .event (.recv data), none => lift (modify fun w => { w with net := w.net.acknowledge i data.length })
    | .event _, none => pure ()
    pure true

/-- At most `k` steps of the loopback net, after `done` others. -/
def settleNet : (k done : Nat) → Traced H Nat
  | 0, done => do
    lift (note b (.warn "loopback did not settle, giving up" [("steps", toString done)]))
    pure done
  | k + 1, done => do
    if ← answers .step then settleNet k (done + 1) else pure done

/-- Answers a request, with `answers` for the requests that it leads to. -/
def answer (k : Nat) : (r : Req H) → Traced H r.Ans
  | .ask id o => operate b answers free k id o
  | .insert layer => insert b layer
  | .wrap inner layer => wrap b inner layer
  | .openPcb p => openPcb b p
  | .dispatch id a => dispatch b answers id a
  | .step => stepNet b answers
  | .settle => settleNet b answers stepLimit 0
  | .tick => do
    let (net, due) := (← lift get).net.tick
    lift (modify fun w => { w with net })
    due.forM fun id => do let _ ← dispatch b answers id (.event .poll)
  -- the others lead to no requests
  | r => lift (Stack.answer b Recorded.unasked (fun _ => throw .outOfFuel) k r)

/-- Answers a request. -/
def exec : Nat → Answers H
  | 0 => fun _ => lift (throw .outOfFuel)
  | k + 1 => answer b (exec k) (freeEntry b (exec k) k) k

/-- Runs what an application does with the stack. -/
def run (fuel : Nat) (p : Act H α) : Traced H α := Program.run (exec b fuel) p

/-! ## Observers of a log -/

section

variable {σ : Type} {step : σ → Incident H → σ → Prop} {c c' c'' : σ} {t u : List (Incident H)} {w : World H}
  {post post' : α → σ → World H → Prop}

/-- The incidents of a log take an observer from one state to another, one after the other. -/
inductive Passes (step : σ → Incident H → σ → Prop) : σ → List (Incident H) → σ → Prop
  | nil (c : σ) : Passes step c [] c
  | cons {c c' c'' : σ} {i : Incident H} {t : List (Incident H)} (h : step c i c') (h' : Passes step c' t c'') :
    Passes step c (i :: t) c''

theorem Passes.single {i : Incident H} (h : step c i c') : Passes step c [i] c' := .cons h (.nil c')

theorem Passes.append (h : Passes step c t c') (h' : Passes step c' u c'') : Passes step c (t ++ u) c'' := by
  induction h with
  | nil c => exact h'
  | cons hi _ ih => exact .cons hi (ih h')

/-- Half-way through a log, the observer is in some state as well. -/
theorem Passes.split (h : Passes step c (t ++ u) c'') : ∃ c', Passes step c t c' ∧ Passes step c' u c'' := by
  induction t generalizing c with
  | nil => exact ⟨c, .nil c, h⟩
  | cons i t ih =>
    cases h with
    | cons hi h =>
      obtain ⟨c', ht, hu⟩ := ih h
      exact ⟨c', .cons hi ht, hu⟩

/-- The log of `x`, run from `w`, takes an observer from `c` to some state; and if the run ends, it ends as `post` says
of its result, of that state, and of the world it leaves. -/
def Leads (step : σ → Incident H → σ → Prop) (x : Traced H α) (w : World H) (c : σ)
    (post : α → σ → World H → Prop) : Prop :=
  ∃ c', Passes step c (x.log w) c' ∧ Exec.Ends x.erase w fun a w' => post a c' w'

theorem Leads.mono {x : Traced H α} (h : Leads step x w c post) (hp : ∀ a c' w', post a c' w' → post' a c' w') :
    Leads step x w c post' := by
  obtain ⟨c', ht, hx⟩ := h
  exact ⟨c', ht, hx.mono fun a w' => hp a c' w'⟩

/-- What is known of the run without its log is known of it with the log. -/
theorem Leads.and {x : Traced H α} {known : α → World H → Prop} (h : Leads step x w c post)
    (hx : Exec.Ends x.erase w known) : Leads step x w c fun a c' w' => post a c' w' ∧ known a w' := by
  obtain ⟨c', ht, hpost⟩ := h
  exact ⟨c', ht, fun a w' hr => ⟨hpost a w' hr, hx a w' hr⟩⟩

theorem Leads.pure {a : α} (h : post a c w) : Leads step (pure a : Traced H α) w c post :=
  ⟨c, .nil c, (Exec.ends_pure a).2 h⟩

theorem Leads.lift {x : Exec H α} (h : Exec.Ends x w fun a w' => post a c w') : Leads step (lift x) w c post :=
  ⟨c, .nil c, h⟩

theorem Leads.mark {post : Unit → σ → World H → Prop} (ht : Passes step c t c') (h : post () c' w) :
    Leads step (mark t) w c post :=
  ⟨c', ht, (Exec.ends_pure ()).2 h⟩

theorem Leads.bind {x : Traced H α} {f : α → Traced H β} {post : β → σ → World H → Prop}
    (h : Leads step x w c fun a c' w' => Leads step (f a) w' c' post) : Leads step (x >>= f) w c post := by
  obtain ⟨c', ht, hx⟩ := h
  change Passes step c (x w).2 c' at ht
  change ∀ a w', (x w).1 = .ok a w' → Leads step (f a) w' c' post at hx
  show ∃ c', Passes step c ((x >>= f) w).2 c' ∧ ∀ a w', ((x >>= f) w).1 = .ok a w' → post a c' w'
  rw [bind_apply]
  generalize x w = r at ht hx
  rcases r with ⟨a | h, t⟩
  · obtain ⟨c'', hu, hpost⟩ := hx a _ rfl
    exact ⟨c'', ht.append hu, hpost⟩
  · exact ⟨c', ht, fun _ _ hr => by cases hr⟩

/-- A computation as part of a method at work. -/
theorem Leads.run {x : Traced H α} {flag : Bool} {post : α × Bool → σ → World H → Prop}
    (h : Leads step x w c fun a => post (a, flag)) : Leads step ((monadLift x : Running H α).run flag) w c post := by
  have hbind : Leads step (x >>= fun a => Pure.pure (a, flag)) w c post := .bind (h.mono fun _ _ _ h => .pure h)
  exact hbind

end

end Traced

end Conduit
