import Conduit.Proofs.Stack.Traced

/-!
# Runs without their log

The log of a run plays no part in what is done.

* `Traced.Erases`: a computation with a log, and the one that it is without. Its rules take both apart side by side.
* `Traced.exec_erases`: a request is answered as by the stack, and so by the layers and callbacks at work.
* `Traced.run_erases`: **a run with a log is the run of the stack, once the log is erased.**
-/

namespace Conduit

namespace Traced

open Stack

variable {H : Host} {α β : Type}

/-- Without its log, `x` is `y`. -/
def Erases (x : Traced H α) (y : Exec H α) : Prop := x.erase = y

section

variable {x x' : Traced H α} {y y' : Exec H α}

theorem Erases.pure (a : α) : Erases (pure a : Traced H α) (pure a) := rfl

theorem Erases.lift (y : Exec H α) : Erases (lift y) y := rfl

theorem Erases.bind {f : α → Traced H β} {g : α → Exec H β} (hx : Erases x y) (hf : ∀ a, Erases (f a) (g a)) :
    Erases (x >>= f) (y >>= g) := by
  subst hx
  funext w
  show ((x >>= f) w).1 = EStateM.bind x.erase g w
  rw [bind_apply]
  unfold EStateM.bind erase
  rcases x w with ⟨a | h, t⟩
  · exact congrFun (hf a) _
  · rfl

/-- What is logged before. -/
theorem Erases.mark {t : List (Incident H)} (hx : Erases x y) : Erases (mark t >>= fun _ => x) y := by
  subst hx
  rfl

/-- A look at the slots that is for the log only. -/
theorem Erases.look {f : Slots H → Traced H α} (hf : ∀ s, Erases (f s) y) : Erases (Traced.lift getSlots >>= f) y := by
  funext w
  exact congrFun (hf w.stack) w

/-- What is logged in the end. -/
theorem Erases.noted (t : List (Incident H)) : Erases (Traced.mark t) (Pure.pure ()) := rfl

theorem Erases.after {x : Traced H Unit} {y : Exec H Unit} {t : List (Incident H)} (hx : Erases x y) :
    Erases (x >>= fun _ => Traced.mark t) y := by
  have h : Erases (x >>= fun _ => Traced.mark t) (y >>= fun _ => Pure.pure ()) := hx.bind fun _ => .noted t
  rwa [show (y >>= fun _ => Pure.pure ()) = y from bind_pure y] at h

theorem Erases.ite {p : Prop} [Decidable p] (h : Erases x y) (h' : Erases x' y') :
    Erases (if p then x else x') (if p then y else y') := by
  split
  · exact h
  · exact h'

theorem Erases.program {I : Interface} {answer : (r : I.Req) → Traced H (I.Ans r)}
    {answer' : (r : I.Req) → Exec H (I.Ans r)} (h : ∀ r, Erases (answer r) (answer' r)) (p : Program I α) :
    Erases (p.run answer) (p.run answer') := by
  induction p with
  | done a => exact .pure a
  | ask r next ih => exact (h r).bind ih

theorem Erases.forM {γ : Type} {f : γ → Traced H PUnit} {g : γ → Exec H PUnit} (h : ∀ c, Erases (f c) (g c))
    (l : List γ) : Erases (l.forM f) (l.forM g) := by
  induction l with
  | nil => exact .pure _
  | cons c l ih => exact (h c).bind fun _ => ih

/-- A method of a layer at work without its log. -/
def RunErases (x : Running H α) (y : Stack.Running H α) : Prop := ∀ flag, Erases (x.run flag) (y.run flag)

theorem RunErases.bind {x : Running H α} {y : Stack.Running H α} {f : α → Running H β} {g : α → Stack.Running H β}
    (hx : RunErases x y) (hf : ∀ a, RunErases (f a) (g a)) : RunErases (x >>= f) (y >>= g) :=
  fun flag => (hx flag).bind fun r => hf r.1 r.2

theorem RunErases.pure (a : α) : RunErases (pure a : Running H α) (pure a) := fun _ => .pure _

theorem RunErases.lift (h : Erases x y) : RunErases (monadLift x : Running H α) (monadLift y : Stack.Running H α) :=
  fun flag => h.bind fun a => .pure (a, flag)

theorem RunErases.set (flag : Bool) : RunErases (set flag : Running H PUnit) (set flag) := fun _ => .pure _

theorem RunErases.program {I : Interface} {answer : (r : I.Req) → Running H (I.Ans r)}
    {answer' : (r : I.Req) → Stack.Running H (I.Ans r)} (h : ∀ r, RunErases (answer r) (answer' r))
    (p : Program I α) : RunErases (p.run answer) (p.run answer') := by
  induction p with
  | done a => exact .pure a
  | ask r next ih => exact (h r).bind ih

end

section

variable {b : Behaviour H} {A : Answers H} {A' : Stack.Answers H} {free : Handle → Traced H Unit}
  {free' : Handle → Exec H Unit}

/-! ### Layers -/

theorem enqueue_erases (id : Handle) (e : Event) : Erases (enqueue (H := H) id e) (Stack.enqueue id e) :=
  .look fun _ => .mark (.lift _)

theorem insert_erases (layer : Layer H) : Erases (insert b layer) (Stack.insert b layer) :=
  .look fun _ => .mark (.lift _)

theorem openPcb_erases (p : PcbRef H.Pcb) : Erases (openPcb b p) (Stack.openPcb b p) :=
  .bind (.lift _) fun _ => .bind (.lift _) fun _ => insert_erases _

theorem wrap_erases (inner : Handle) (layer : Layer H) : Erases (wrap b inner layer) (Stack.wrap b inner layer) := by
  refine .bind (.lift _) fun e => ?_
  cases e with
  | none => exact .pure _
  | some e =>
    refine .ite (.pure _) (.bind (insert_erases layer) fun outer => ?_)
    exact .bind (.lift _) fun _ => .bind (.lift _) fun _ => .pure _

variable (hA : ∀ r, Erases (A r) (A' r))
include hA

theorem answerLayer_erases (me : Handle) (r : Layer.Req H) :
    RunErases (answerLayer b A me r) (Stack.answerLayer b A' me r) := by
  cases r with
  | ask id o => exact .lift (hA _)
  | emit e => exact .lift (enqueue_erases me e)
  | fail f => exact .bind (.lift (enqueue_erases me _)) fun _ => .set true
  | cover inner l => exact .lift (hA _)
  | _ => exact fun flag => .lift _

theorem answerCustom_erases (me : Handle) (r : (Layer.customIo H).Req) :
    RunErases (answerCustom b A me r) (Stack.answerCustom b A' me r) := by
  cases r with
  | inl r => exact answerLayer_erases hA me r
  | inr r => exact .lift (hA r)

theorem runMethod_erases (me : Handle) (m : Method) (layer : Layer H) :
    RunErases (runMethod b A me m layer) (Stack.runMethod b A' me m layer) := by
  cases layer with
  | custom l => exact .bind (.program (answerCustom_erases hA me) _) fun _ => .pure _
  | _ => exact .bind (.program (answerLayer_erases hA me) _) fun _ => .pure _

theorem withLayer_erases (hfree : ∀ id, Erases (free id) (free' id)) (id : Handle) (m : Method) :
    Erases (withLayer b A free id m) (Stack.withLayer b A' free' id m) := by
  refine .bind (.lift _) fun e => ?_
  cases e with
  | none => exact .pure _
  | some e =>
    cases hl : e.layer with
    | none =>
      simp only [hl]
      exact .mark (.pure _)
    | some layer =>
      simp only [hl]
      refine .bind (.lift _) fun _ => .bind (runMethod_erases hA id m layer false) fun r => ?_
      refine .bind (.lift _) fun _ => .bind (.lift _) fun s => ?_
      refine .ite (.bind (.lift _) fun _ => ?_) (.mark (.bind (.lift _) fun _ => .pure _))
      exact .ite (.bind (hfree id) fun _ => .pure _) (.pure _)

theorem dealloc_erases (id : Handle) : Erases (dealloc b A id) (Stack.dealloc b A' id) := by
  refine .bind (.lift _) fun e => ?_
  cases e.bind (·.layer) with
  | none =>
    exact .pure _
  | some layer =>
    exact .mark (.bind (.lift _) fun _ => .bind (runMethod_erases hA id .dealloc layer false) fun _ => .lift _)

theorem freeEntry_erases (k : Nat) (id : Handle) : Erases (freeEntry b A k id) (Stack.freeEntry b A' k id) := by
  induction k generalizing id with
  | zero => exact .lift _
  | succ k ih =>
    refine .bind (dealloc_erases hA id) fun _ => .bind (.lift _) fun e => ?_
    cases e with
    | none => exact .pure _
    | some e =>
      -- what stands below goes as well
      have hbelow : ∀ inner : Handle, Erases (H := H) (do
          if (← Traced.lift getSlots).outer? inner = some id then
            Traced.lift (modifySlots fun s => (s.update inner fun i => { i with outer := none }).clearCallbacks inner)
            let _ ← withLayer b A (freeEntry b A k) inner (.op .abort)
            freeEntry b A k inner
          Traced.lift (note b (.trace "connection freed" [id.field, ("layer", e.name)]))) (do
          if (← getSlots).outer? inner = some id then
            modifySlots fun s => (s.update inner fun i => { i with outer := none }).clearCallbacks inner
            let _ ← Stack.withLayer b A' (Stack.freeEntry b A' k) inner (.op .abort)
            Stack.freeEntry b A' k inner
          note b (.trace "connection freed" [id.field, ("layer", e.name)])) := by
        intro inner
        refine .bind (.lift _) fun s => .ite (.bind (.lift _) fun _ => ?_) (.lift _)
        exact .bind (withLayer_erases hA ih inner _) fun _ => .bind (ih inner) fun _ => .lift _
      refine .mark (.bind (.lift _) fun _ => ?_)
      cases e.outer with
      | none =>
        cases e.inner with
        | none => exact .lift _
        | some inner => exact hbelow inner
      | some outer =>
        cases e.inner with
        | none => exact .bind (.lift _) fun _ => .lift _
        | some inner => exact .bind (.lift _) fun _ => hbelow inner

/-! ### Events -/

theorem callback_erases (id : Handle) (kind : CallbackKind) (call : Call) {absent : Traced H Outcome}
    {absent' : Exec H Outcome} (h : Erases absent absent') :
    Erases (callback b A id kind call absent) (Stack.callback b A' id kind call absent') := by
  refine .bind (.lift _) fun e => ?_
  cases e with
  | none => exact h
  | some e =>
    cases hc : e.callbacks.get kind with
    | none =>
      simp only [hc]
      exact h
    | some code =>
      simp only [hc]
      refine .bind (.lift _) fun _ => .look fun s => .mark ?_
      exact .bind (.program hA _) fun _ => .mark (.bind (.lift _) fun _ => .pure _)

variable (hfree : ∀ id, Erases (free id) (free' id))
include hfree

theorem settleRecv_erases (source : Handle) (v : Outcome) :
    Erases (settleRecv b A free source v) (Stack.settleRecv b A' free' source v) :=
  .bind (withLayer_erases hA hfree source _) fun _ => .pure _

theorem deliverToLayer_erases (outer source : Handle) (e : Event) :
    Erases (deliverToLayer b A free outer source e) (Stack.deliverToLayer b A' free' outer source e) := by
  refine .bind (withLayer_erases hA hfree outer _) fun v => ?_
  generalize (v.bind id : Outcome) = verdict
  cases e with
  | accept new =>
    cases verdict with
    | ok u => exact .pure _
    | error f => exact .bind (.lift _) fun _ => hA _
  | recv d => exact settleRecv_erases hA hfree source verdict
  | _ => exact .pure _

theorem deliverToApp_erases (me : Handle) (e : Event) :
    Erases (deliverToApp b A free me e) (Stack.deliverToApp b A' free' me e) := by
  cases e with
  | accept new =>
    refine .bind (callback_erases hA me _ _ (.pure _)) fun v => ?_
    cases v with
    | ok u => exact .pure _
    | error f => exact .bind (.lift _) fun _ => hA _
  | recv data =>
    refine .bind (callback_erases hA me _ _ ?_) fun v => settleRecv_erases hA hfree me v
    exact .bind (.lift _) fun _ => .bind (hA _) fun _ => .pure _
  | error f => exact .pure _
  | _ => exact .bind (callback_erases hA me _ _ (.pure _)) fun _ => .pure _

theorem deliver_erases (q : Queued H) : Erases (deliver b A free q) (Stack.deliver b A' free' q) := by
  obtain ⟨source, event, route⟩ := q
  cases route with
  | sink code =>
    cases event with
    | error reason =>
      refine .bind (.lift _) fun _ => ?_
      cases code with
      | none => exact .pure _
      | some code => exact .look fun s => .mark (.bind (.program hA _) fun _ => .noted _)
    | _ => exact .pure _
  | layer outer => exact deliverToLayer_erases hA hfree outer source event
  | resolve =>
    refine .bind (.lift _) fun e => ?_
    cases e with
    | none => exact .lift _
    | some e =>
      cases ho : e.outer with
      | none =>
        simp only [ho]
        exact deliverToApp_erases hA hfree source event
      | some outer =>
        simp only [ho]
        exact deliverToLayer_erases hA hfree outer source event

theorem drain_erases (k : Nat) : Erases (drain b A free k) (Stack.drain b A' free' k) := by
  induction k with
  | zero => exact .lift _
  | succ k ih =>
    refine .bind (.lift _) fun s => ?_
    cases s.queue with
    | nil =>
      exact .pure _
    | cons q rest =>
      exact .mark (.bind (.lift _) fun _ => .bind (deliver_erases hA hfree q) fun _ => .mark ih)

theorem pump_erases (k : Nat) : Erases (pump b A free k) (Stack.pump b A' free' k) := by
  refine .bind (.lift _) fun s => .ite (.pure _) (.mark (.bind (.lift _) fun _ => ?_))
  exact .bind (drain_erases hA hfree k) fun _ => .after (.lift _)

/-! ### Requests -/

theorem call_erases (k : Nat) (id : Handle) (o : Op) :
    Erases (call b A free k id o) (Stack.call b A' free' k id o) := by
  refine .bind (withLayer_erases hA hfree id _) fun r => .bind (pump_erases hA hfree k) fun _ => ?_
  cases r with
  | ok r => exact .pure _
  | error f => exact .pure _

theorem operate_erases (k : Nat) (id : Handle) (o : Op) :
    Erases (operate b A free k id o) (Stack.operate b A' free' k id o) := by
  cases o with
  | abort =>
    refine .bind (.lift _) fun s => .ite (.bind (.lift _) fun _ => ?_) (.pure _)
    refine .bind (withLayer_erases hA hfree id _) fun _ => .bind (.lift _) fun s => ?_
    refine .ite (.bind (enqueue_erases id _) fun _ => ?_) (pump_erases hA hfree k)
    exact .bind (hfree id) fun _ => pump_erases hA hfree k
  | setPoll n =>
    exact .bind (.lift _) fun s => .ite (.bind (.lift _) fun _ => call_erases hA hfree k id _) (.pure _)
  | lower e => exact .bind (.lift _) fun _ => call_erases hA hfree k id _
  | _ => exact call_erases hA hfree k id _

omit hfree in
theorem dispatch_erases (id : Handle) (a : Arrival H.Pcb) :
    Erases (dispatch b A id a) (Stack.dispatch b A' id a) := by
  cases a with
  | event e => exact hA _
  | accepted p =>
    refine .bind (.lift _) fun s => .ite (.bind (openPcb_erases p) fun new => .bind (hA _) fun v => ?_) ?_
    · cases v with
      | ok u => exact .pure _
      | error f => exact .bind (hA _) fun _ => .pure _
    · exact .bind (.lift _) fun _ => .bind (.lift _) fun _ => .pure _

omit hfree in
theorem stepNet_erases : Erases (stepNet b A) (Stack.stepNet b A') := by
  refine .bind (.lift _) fun w => ?_
  cases w.net.next with
  | none =>
    exact .pure _
  | some r =>
    refine .bind (.lift _) fun _ => .bind (.lift _) fun _ => ?_
    rcases r.value with ⟨i, delivery⟩
    dsimp only
    generalize (r.net.pcb i).owner = owner
    cases delivery with
    | nothing => exact .pure _
    | accept new =>
      cases owner with
      | none => exact .bind (.lift _) fun _ => .pure _
      | some listener => exact .bind (dispatch_erases hA _ _) fun _ => .pure _
    | reset =>
      refine .bind (.lift _) fun _ => ?_
      cases owner with
      | none => exact .pure _
      | some id => exact .bind (.lift _) fun _ => .bind (dispatch_erases hA _ _) fun _ => .pure _
    | event e =>
      cases owner with
      | none =>
        cases e with
        | recv data => exact .bind (.lift _) fun _ => .pure _
        | _ => exact .pure _
      | some id =>
        refine .bind (dispatch_erases hA _ _) fun v => ?_
        cases v with
        | ok u => exact .pure _
        | error f => exact .bind (.lift _) fun _ => .pure _

omit hfree in
theorem settleNet_erases (k done : Nat) : Erases (settleNet b A k done) (Stack.settleNet b A' k done) := by
  induction k generalizing done with
  | zero => exact .bind (.lift _) fun _ => .pure _
  | succ k ih => exact .bind (hA _) fun _ => .ite (ih _) (.pure _)

theorem answer_erases (k : Nat) (r : Req H) : Erases (answer b A free k r) (Stack.answer b A' free' k r) := by
  cases r with
  | ask id o => exact operate_erases hA hfree k id o
  | insert layer => exact insert_erases layer
  | wrap inner layer => exact wrap_erases inner layer
  | openPcb p => exact openPcb_erases p
  | dispatch id a => exact dispatch_erases hA id a
  | step => exact stepNet_erases hA
  | settle => exact settleNet_erases hA _ _
  | tick =>
    refine .bind (.lift _) fun w => .bind (.lift _) fun _ => .forM (fun id => ?_) _
    exact .bind (dispatch_erases hA _ _) fun _ => .pure _
  | _ => exact .lift _

omit hA hfree in
/-- A request is answered as by the stack. -/
theorem exec_erases (k : Nat) (r : Req H) : Erases (exec b k r) (Stack.exec b k r) := by
  induction k generalizing r with
  | zero => exact .lift _
  | succ k ih => exact answer_erases ih (freeEntry_erases ih k) k r

omit hA hfree in
/-- **A run with a log is the run of the stack**, once the log is erased. -/
theorem run_erases (b : Behaviour H) (fuel : Nat) (p : Act H α) : (run b fuel p).erase = Stack.run b fuel p :=
  Erases.program (exec_erases fuel) p

end

end Traced

end Conduit
