import Conduit.Proofs.Stack.Erased
import Conduit.Proofs.Stack.Lives
import Conduit.Proofs.Stack.Rests
import Mathlib.Algebra.Ring.Int.Defs

/-!
# One event after the other

Callbacks and layers may ask whatever they like, at any time. Still there is one pump, it delivers one event at a time,
and one callback runs at a time; and events are delivered in the order in which they came into the queue.

* `Pace`: an observer that knows which events wait, and what the pump is about.
* `Traced.Paced`: a computation during which the log keeps to what the observer allows.
* `Traced.exec_paced`: so does every request, made at any time.
* `InTurn`: what that says of the log at any moment.
* `Traced.run_inTurn`: **events are delivered one after the other, in the order in which they came.**
-/

namespace Conduit

open Stack

variable {H : Host}

/-! ## The observer -/

/-- What the pump is about. -/
inductive Stage
  /-- It is not at work. -/
  | rest
  /-- It is between two deliveries. -/
  | pumping
  /-- It delivers an event, -/
  | delivering
  /-- and for that a callback runs. -/
  | calling

/-- What an observer of the pump knows: the events that wait, and what the pump is about. -/
structure Pace (H : Host) where
  waiting : List (Queued H)
  stage : Stage

/-- Whether an incident is none of the pump's. -/
def Incident.isAside : Incident H → Bool
  | .reentered _ | .vanished _ | .born _ | .farewell _ | .freed _ => true
  | .queued _ | .began | .taken _ | .delivered | .ceased | .called _ _ | .returned => false

/-- What the observer allows. Events come at any time, but only the pump takes them, the first one first; a callback
begins only while an event is delivered, and none is delivered while a callback runs. -/
inductive Pace.Step : Pace H → Incident H → Pace H → Prop
  | queued (q : Queued H) (l : List (Queued H)) (st : Stage) : Step ⟨l, st⟩ (.queued q) ⟨l ++ [q], st⟩
  | began (l : List (Queued H)) : Step ⟨l, .rest⟩ .began ⟨l, .pumping⟩
  | taken (q : Queued H) (l : List (Queued H)) : Step ⟨q :: l, .pumping⟩ (.taken q) ⟨l, .delivering⟩
  | called (call : Call) (s : Slots H) (l : List (Queued H)) :
    Step ⟨l, .delivering⟩ (.called call s) ⟨l, .calling⟩
  | returned (l : List (Queued H)) : Step ⟨l, .calling⟩ .returned ⟨l, .delivering⟩
  | delivered (l : List (Queued H)) : Step ⟨l, .delivering⟩ .delivered ⟨l, .pumping⟩
  | ceased (l : List (Queued H)) : Step ⟨l, .pumping⟩ .ceased ⟨l, .rest⟩
  | aside {i : Incident H} (h : i.isAside = true) (c : Pace H) : Step c i c

theorem Slots.enqueue_queue (s : Slots H) (id : Handle) (e : Event) :
    (s.enqueue id e).queue = s.queue ++ (s.enqueue id e).queue.drop s.queue.length := by
  have hmore : ∃ l, (s.enqueue id e).queue = s.queue ++ l := by
    unfold Slots.enqueue
    split
    · split
      · exact ⟨[], (List.append_nil _).symm⟩
      · split
        · exact ⟨_, rfl⟩
        · exact ⟨_, rfl⟩
    · exact ⟨_, rfl⟩
  obtain ⟨l, hl⟩ := hmore
  rw [hl, List.drop_left]

namespace Traced

variable {α β : Type} {st : Stage}

theorem passes_queued (l qs : List (Queued H)) (st : Stage) :
    Passes Pace.Step ⟨l, st⟩ (qs.map .queued) ⟨l ++ qs, st⟩ := by
  induction qs generalizing l with
  | nil =>
    rw [List.append_nil]
    exact .nil _
  | cons q qs ih =>
    have hrest := ih (l ++ [q])
    rw [List.append_assoc] at hrest
    exact .cons (.queued q l st) hrest

/-! ## Computations that keep to it -/

/-- While the pump is at a stage, the log of `x` is as the observer allows, and the pump is at that stage again if `x`
ends. -/
def Paced (st : Stage) (x : Traced H α) : Prop :=
  ∀ w : World H, (st ≠ .rest → w.stack.pumping = true) → Leads Pace.Step x w ⟨w.stack.queue, st⟩ fun _ c w' =>
    c = ⟨w'.stack.queue, st⟩ ∧ w'.stack.pumping = w.stack.pumping

/-- Neither the queue nor the flag of the pump is touched. -/
def Aloof (y : Exec H α) : Prop :=
  ∀ w, Exec.Ends y w fun _ w' => w'.stack.queue = w.stack.queue ∧ w'.stack.pumping = w.stack.pumping

theorem Paced.pure (a : α) : Paced st (pure a : Traced H α) := fun _ _ => .pure ⟨rfl, rfl⟩

theorem Paced.lift {y : Exec H α} (hy : Aloof y) : Paced st (lift y) := by
  intro w hw
  refine .lift ((hy w).mono fun a w' h => ⟨?_, h.2⟩)
  rw [h.1]

theorem Paced.mark {t : List (Incident H)} (ht : ∀ i ∈ t, i.isAside = true) : Paced st (mark t) := by
  intro w hw
  refine .mark ?_ ⟨rfl, rfl⟩
  induction t with
  | nil => exact .nil _
  | cons i t ih => exact .cons (.aside (ht i List.mem_cons_self) _) (ih fun j hj => ht j (List.mem_cons_of_mem i hj))

theorem Paced.bind {x : Traced H α} {f : α → Traced H β} (hx : Paced st x) (hf : ∀ a, Paced st (f a)) :
    Paced st (x >>= f) := by
  intro w hw
  refine .bind ((hx w hw).mono ?_)
  rintro a c w' ⟨rfl, hp⟩
  exact (hf a w' fun hst => hp.trans (hw hst)).mono fun _ _ _ h => ⟨h.1, h.2.trans hp⟩

theorem Paced.ite {p : Prop} [Decidable p] {x y : Traced H α} (hx : Paced st x) (hy : Paced st y) :
    Paced st (if p then x else y) := by
  split
  · exact hx
  · exact hy

theorem Paced.program {I : Interface} {answer : (r : I.Req) → Traced H (I.Ans r)} (h : ∀ r, Paced st (answer r))
    (p : Program I α) : Paced st (p.run answer) := by
  induction p with
  | done a => exact .pure a
  | ask r next ih => exact (h r).bind ih

theorem Paced.forM {γ : Type} {f : γ → Traced H PUnit} (h : ∀ c, Paced st (f c)) (l : List γ) :
    Paced st (l.forM f) := by
  induction l with
  | nil => exact .pure _
  | cons c l ih => exact (h c).bind fun _ => ih

/-- A method of a layer at work. -/
def RunPaced (st : Stage) (x : Running H α) : Prop := ∀ flag, Paced st (x.run flag)

theorem RunPaced.pure (a : α) : RunPaced st (pure a : Running H α) := fun _ => .pure _

theorem RunPaced.lift {x : Traced H α} (h : Paced st x) : RunPaced st (monadLift x : Running H α) :=
  fun _ => h.bind fun _ => .pure _

theorem RunPaced.bind {x : Running H α} {f : α → Running H β} (hx : RunPaced st x) (hf : ∀ a, RunPaced st (f a)) :
    RunPaced st (x >>= f) := fun flag => (hx flag).bind fun r => hf r.1 r.2

theorem RunPaced.program {I : Interface} {answer : (r : I.Req) → Running H (I.Ans r)}
    (h : ∀ r, RunPaced st (answer r)) (p : Program I α) : RunPaced st (p.run answer) := by
  induction p with
  | done a => exact .pure a
  | ask r next ih => exact (h r).bind ih

/-! ### What is aloof -/

section

variable {b : Behaviour H}

theorem Aloof.pure (a : α) : Aloof (pure a : Exec H α) := fun _ => (Exec.ends_pure a).2 ⟨rfl, rfl⟩

theorem Aloof.bind {x : Exec H α} {f : α → Exec H β} (hx : Aloof x) (hf : ∀ a, Aloof (f a)) : Aloof (x >>= f) :=
  fun w => (Exec.ends_bind x f).2 ((hx w).mono fun a w' h => (hf a w').mono fun _ _ h' =>
    ⟨h'.1.trans h.1, h'.2.trans h.2⟩)

theorem aloof_of_stack {y : Exec H α} (h : ∀ w, Exec.Ends y w fun _ w' => w'.stack = w.stack) : Aloof y :=
  fun w => (h w).mono fun _ _ hw => by rw [hw]; exact ⟨rfl, rfl⟩

theorem aloof_modifySlots {f : Slots H → Slots H} (hq : ∀ s, (f s).queue = s.queue)
    (hp : ∀ s, (f s).pumping = s.pumping) : Aloof (modifySlots f) :=
  fun w => (ends_modifySlots f).2 ⟨hq w.stack, hp w.stack⟩

theorem aloof_throw (h : Halt) : Aloof (throw h : Exec H α) := fun _ => Exec.ends_throw h

theorem aloof_getSlots : Aloof (getSlots : Exec H (Slots H)) := fun _ => ends_getSlots.2 ⟨rfl, rfl⟩

theorem aloof_get : Aloof (get : Exec H (World H)) := fun _ => Exec.ends_get.2 ⟨rfl, rfl⟩

theorem aloof_modify {f : World H → World H} (h : ∀ w, (f w).stack = w.stack) : Aloof (modify f) :=
  aloof_of_stack fun w => (Exec.ends_modify f).2 (h w)

theorem aloof_lookup (id : Handle) : Aloof (lookup (H := H) id) := fun _ => (ends_lookup id).2 ⟨rfl, rfl⟩

theorem aloof_note (n : Note) : Aloof (note b n) := fun _ => (ends_note n).2 ⟨rfl, rfl⟩

theorem aloof_notes (ns : List Note) : Aloof (notes b ns) := fun _ => ends_notes ns fun _ => ⟨rfl, rfl⟩

theorem aloof_performPcb (p : PcbRef H.Pcb) (o : PcbOp) : Aloof (performPcb b p o) :=
  aloof_of_stack fun _ => Recorded.ends_performPcb p o

theorem aloof_insert (layer : Layer H) : Aloof (Stack.insert b layer) := by
  intro w
  obtain ⟨hlevel, hqueue⟩ := insert_frame w.stack (layerName b layer) layer
  unfold Stack.insert
  simp only [Exec.ends_bind, ends_getSlots, ends_modifySlots, ends_note, Exec.ends_pure]
  exact ⟨hqueue, hlevel.pumping⟩

end

/-! ### Layers -/

section

variable {b : Behaviour H} {A : Answers H} {free : Handle → Traced H Unit}

theorem enqueue_paced (id : Handle) (e : Event) : Paced st (enqueue (H := H) id e) := by
  intro w hw
  refine .bind (.lift (ends_getSlots.2 (.bind (.mark (passes_queued _ _ _) (.lift ?_)))))
  refine (ends_modifySlots _).2 ⟨?_, (level_enqueue id e).pumping⟩
  rw [← Slots.enqueue_queue]

theorem insert_paced (layer : Layer H) : Paced st (insert b layer) :=
  .bind (.lift aloof_getSlots) fun _ => .bind (.mark (by simp [Incident.isAside])) fun _ => .lift (aloof_insert layer)

theorem openPcb_paced (p : PcbRef H.Pcb) : Paced st (openPcb b p) :=
  .bind (.lift aloof_getSlots) fun _ => .bind (.lift (aloof_performPcb p _)) fun _ => insert_paced _

theorem wrap_paced (inner : Handle) (layer : Layer H) : Paced st (wrap b inner layer) := by
  refine .bind (.lift (aloof_lookup inner)) fun e => ?_
  cases e with
  | none => exact .pure _
  | some e =>
    refine .ite (.pure _) (.bind (insert_paced layer) fun outer => ?_)
    refine .bind (.lift (aloof_modifySlots (fun _ => rfl) fun _ => rfl)) fun _ => ?_
    exact .bind (.lift (aloof_note _)) fun _ => .pure _

variable (hA : ∀ r, Paced st (A r))
include hA

theorem answerLayer_paced (me : Handle) (r : Layer.Req H) : RunPaced st (answerLayer b A me r) := by
  cases r with
  | ask id o => exact .lift (hA _)
  | emit e => exact .lift (enqueue_paced me e)
  | fail f => exact .bind (.lift (enqueue_paced me _)) fun _ => fun _ => .pure _
  | cover inner l => exact .lift (hA _)
  | pcb p o => exact fun flag => .lift fun w => (ends_run_lift _).2 (aloof_performPcb p o w)
  | _ =>
    refine fun flag => .lift fun w a w' h => ?_
    cases h
    exact ⟨rfl, rfl⟩

theorem answerCustom_paced (me : Handle) (r : (Layer.customIo H).Req) : RunPaced st (answerCustom b A me r) := by
  cases r with
  | inl r => exact answerLayer_paced hA me r
  | inr r => exact .lift (hA r)

theorem runMethod_paced (me : Handle) (m : Method) (layer : Layer H) : RunPaced st (runMethod b A me m layer) := by
  cases layer with
  | custom l => exact .bind (.program (answerCustom_paced hA me) _) fun _ => .pure _
  | _ => exact .bind (.program (answerLayer_paced hA me) _) fun _ => .pure _

theorem withLayer_paced (hfree : ∀ id, Paced st (free id)) (id : Handle) (m : Method) :
    Paced st (withLayer b A free id m) := by
  refine .bind (.lift (aloof_lookup id)) fun e => ?_
  cases e with
  | none => exact .pure _
  | some e =>
    cases hl : e.layer with
    | none =>
      simp only [hl]
      exact .bind (.mark (by simp [Incident.isAside])) fun _ => .pure _
    | some layer =>
      simp only [hl]
      refine .bind (.lift (aloof_modifySlots (fun _ => rfl) fun _ => rfl)) fun _ => ?_
      refine .bind (runMethod_paced hA id m layer false) fun r => ?_
      refine .bind (.lift (aloof_modifySlots (fun _ => rfl) fun _ => rfl)) fun _ => ?_
      refine .bind (.lift aloof_getSlots) fun s => .ite ?_ ?_
      · refine .bind (.lift (aloof_modifySlots (fun _ => rfl) fun _ => rfl)) fun _ => ?_
        exact .ite (.bind (hfree id) fun _ => .pure _) (.pure _)
      · refine .bind (.mark (by simp [Incident.isAside])) fun _ => ?_
        exact .bind (.lift (aloof_note _)) fun _ => .pure _

theorem dealloc_paced (id : Handle) : Paced st (dealloc b A id) := by
  refine .bind (.lift (aloof_lookup id)) fun e => ?_
  cases e.bind (·.layer) with
  | none => exact .pure _
  | some layer =>
    refine .bind (.mark (by simp [Incident.isAside])) fun _ => ?_
    refine .bind (.lift (aloof_modifySlots (fun _ => rfl) fun _ => rfl)) fun _ => ?_
    refine .bind (runMethod_paced hA id .dealloc layer false) fun _ => ?_
    exact .lift (aloof_modifySlots (fun _ => rfl) fun _ => rfl)

theorem freeEntry_paced (k : Nat) (id : Handle) : Paced st (freeEntry b A k id) := by
  induction k generalizing id with
  | zero => exact .lift (aloof_throw _)
  | succ k ih =>
    refine .bind (dealloc_paced hA id) fun _ => .bind (.lift (aloof_lookup id)) fun e => ?_
    cases e with
    | none => exact .pure _
    | some e =>
      have hslots : ∀ {f : Slots H → Slots H}, (∀ s, (f s).queue = s.queue) → (∀ s, (f s).pumping = s.pumping) →
          Paced st (lift (modifySlots f)) := fun hq hp => .lift (aloof_modifySlots hq hp)
      -- what stands below goes as well
      have hbelow : ∀ inner : Handle, Paced (H := H) st (do
          if (← Traced.lift getSlots).outer? inner = some id then
            Traced.lift (modifySlots fun s => (s.update inner fun i => { i with outer := none }).clearCallbacks inner)
            let _ ← withLayer b A (freeEntry b A k) inner (.op .abort)
            freeEntry b A k inner
          Traced.lift (note b (.trace "connection freed" [id.field, ("layer", e.name)]))) := by
        intro inner
        refine .bind (.lift aloof_getSlots) fun s => .ite ?_ (.lift (aloof_note _))
        refine .bind (hslots (fun _ => rfl) fun _ => rfl) fun _ => ?_
        refine .bind (withLayer_paced hA ih inner _) fun _ => ?_
        exact .bind (ih inner) fun _ => .lift (aloof_note _)
      refine .bind (.mark (by simp [Incident.isAside])) fun _ => .bind (hslots (fun _ => rfl) fun _ => rfl) fun _ => ?_
      cases e.outer with
      | none =>
        cases e.inner with
        | none => exact .lift (aloof_note _)
        | some inner => exact hbelow inner
      | some outer =>
        refine .bind (hslots (fun _ => rfl) fun _ => rfl) fun _ => ?_
        cases e.inner with
        | none => exact .lift (aloof_note _)
        | some inner => exact hbelow inner

end

/-! ### Events -/

section

variable {b : Behaviour H} {A : Answers H} {free : Handle → Traced H Unit} (hA : ∀ st r, Paced st (A r))
  (hfree : ∀ st id, Paced st (free id))
include hA

/-- A callback runs while an event is delivered, and whatever it asks, the pump waits for it. -/
theorem during_paced (call : Call) (p : Act H α) {f : α → Traced H β} (hf : ∀ a, Paced .delivering (f a)) :
    Paced .delivering (do
      mark [.called call (← lift getSlots)]
      let a ← p.run A
      mark [.returned]
      f a) := by
  intro w hw
  have hp : w.stack.pumping = true := hw (by simp)
  refine .bind (.lift (ends_getSlots.2 (.bind (.mark (.single (.called call _ _)) (.bind ?_)))))
  refine ((Paced.program (hA .calling) p) w fun _ => hp).mono ?_
  rintro a c w' ⟨rfl, hp'⟩
  refine .bind (.mark (.single (.returned _)) ?_)
  exact (hf a w' fun _ => hp'.trans hp).mono fun _ _ _ h => ⟨h.1, h.2.trans hp'⟩

theorem callback_paced (id : Handle) (kind : CallbackKind) (call : Call) {absent : Traced H Outcome}
    (h : Paced .delivering absent) : Paced .delivering (callback b A id kind call absent) := by
  refine .bind (.lift (aloof_lookup id)) fun e => ?_
  cases e with
  | none => exact h
  | some e =>
    cases hc : e.callbacks.get kind with
    | none =>
      simp only [hc]
      exact h
    | some code =>
      simp only [hc]
      refine .bind (.lift (aloof_modifySlots (fun _ => rfl) fun _ => rfl)) fun _ => ?_
      refine during_paced hA call _ fun r => ?_
      exact .bind (.lift (aloof_modifySlots (fun _ => rfl) fun _ => rfl)) fun _ => .pure _

include hfree

theorem settleRecv_paced (source : Handle) (v : Outcome) : Paced st (settleRecv b A free source v) :=
  .bind (withLayer_paced (hA st) (hfree st) source _) fun _ => .pure _

theorem deliverToLayer_paced (outer source : Handle) (e : Event) :
    Paced st (deliverToLayer b A free outer source e) := by
  refine .bind (withLayer_paced (hA st) (hfree st) outer _) fun v => ?_
  generalize (v.bind id : Outcome) = verdict
  cases e with
  | accept new =>
    cases verdict with
    | ok u => exact .pure _
    | error f => exact .bind (.lift (aloof_note _)) fun _ => hA st _
  | recv d => exact settleRecv_paced hA hfree source verdict
  | _ => exact .pure _

theorem deliverToApp_paced (me : Handle) (e : Event) : Paced .delivering (deliverToApp b A free me e) := by
  cases e with
  | accept new =>
    refine .bind (callback_paced hA me _ _ (.pure _)) fun v => ?_
    cases v with
    | ok u => exact .pure _
    | error f => exact .bind (.lift (aloof_note _)) fun _ => hA _ _
  | recv data =>
    refine .bind (callback_paced hA me _ _ ?_) fun v => settleRecv_paced hA hfree me v
    exact .bind (.lift (aloof_note _)) fun _ => .bind (hA _ _) fun _ => .pure _
  | error f => exact .pure _
  | _ => exact .bind (callback_paced hA me _ _ (.pure _)) fun _ => .pure _

theorem deliver_paced (q : Queued H) : Paced .delivering (deliver b A free q) := by
  obtain ⟨source, event, route⟩ := q
  cases route with
  | sink code =>
    cases event with
    | error reason =>
      refine .bind (.lift (aloof_note _)) fun _ => ?_
      cases code with
      | none => exact .pure _
      | some code => exact during_paced hA _ _ fun _ => .pure _
    | _ => exact .pure _
  | layer outer => exact deliverToLayer_paced hA hfree outer source event
  | resolve =>
    refine .bind (.lift (aloof_lookup source)) fun e => ?_
    cases e with
    | none => exact .lift (aloof_note _)
    | some e =>
      cases ho : e.outer with
      | none =>
        simp only [ho]
        exact deliverToApp_paced hA hfree source event
      | some outer =>
        simp only [ho]
        exact deliverToLayer_paced hA hfree outer source event

/-- One delivery after the other. The induction is on how many there may be. -/
theorem drain_paced (k : Nat) : Paced .pumping (drain b A free k) := by
  induction k with
  | zero => exact .lift (aloof_throw _)
  | succ k ih =>
    intro w hw
    have hp : w.stack.pumping = true := hw (by simp)
    refine .bind (.lift (ends_getSlots.2 ?_))
    cases hq : w.stack.queue with
    | nil => exact .pure ⟨by rw [hq], rfl⟩
    | cons q rest =>
      refine .bind (.mark (.single (.taken q rest)) (.bind (.lift ((ends_modifySlots _).2 (.bind ?_)))))
      refine (deliver_paced hA hfree q { w with stack := { w.stack with queue := rest } } fun _ => hp).mono ?_
      rintro _ c w' ⟨rfl, hp'⟩
      refine .bind (.mark (.single (.delivered _)) ?_)
      exact (ih w' fun _ => hp'.trans hp).mono fun _ _ _ h => ⟨h.1, h.2.trans hp'⟩

/-- There is one pump: whoever calls for it while it is at work, finds nothing to do. -/
theorem pump_paced (k : Nat) : Paced st (pump b A free k) := by
  intro w hw
  refine .bind (.lift (ends_getSlots.2 ?_))
  split
  · exact .pure ⟨rfl, rfl⟩
  · rename_i hbusy
    rw [Bool.or_eq_true, not_or, Bool.not_eq_true w.stack.pumping] at hbusy
    have hst : st = .rest := by
      by_contra hne
      exact absurd (hw hne) (by simp [hbusy.2])
    subst hst
    refine .bind (.mark (.single (.began _)) (.bind (.lift ((ends_modifySlots _).2 (.bind ?_)))))
    refine (drain_paced hA hfree k { w with stack := { w.stack with pumping := true } } fun _ => rfl).mono ?_
    rintro _ c w' ⟨rfl, -⟩
    refine .bind (.lift ((ends_modifySlots _).2 (.mark (.single (.ceased _)) ⟨rfl, ?_⟩)))
    exact hbusy.2.symm

/-! ### Requests -/

theorem call_paced (k : Nat) (id : Handle) (o : Op) : Paced st (call b A free k id o) := by
  refine .bind (withLayer_paced (hA st) (hfree st) id _) fun r => .bind (pump_paced hA hfree k) fun _ => ?_
  cases r with
  | ok r => exact .pure _
  | error f => exact .pure _

theorem operate_paced (k : Nat) (id : Handle) (o : Op) : Paced st (operate b A free k id o) := by
  cases o with
  | abort =>
    refine .bind (.lift aloof_getSlots) fun s => .ite (.bind (.lift (aloof_note _)) fun _ => ?_) (.pure _)
    refine .bind (withLayer_paced (hA st) (hfree st) id _) fun _ => .bind (.lift aloof_getSlots) fun s => ?_
    refine .ite (.bind (enqueue_paced id _) fun _ => ?_) (pump_paced hA hfree k)
    exact .bind (hfree st id) fun _ => pump_paced hA hfree k
  | setPoll n =>
    refine .bind (.lift aloof_getSlots) fun s => .ite (.bind ?_ fun _ => call_paced hA hfree k id _) (.pure _)
    exact .lift (aloof_modifySlots (fun _ => rfl) fun _ => rfl)
  | lower e => exact .bind (.lift (aloof_note _)) fun _ => call_paced hA hfree k id _
  | _ => exact call_paced hA hfree k id _

omit hfree in
theorem dispatch_paced (id : Handle) (a : Arrival H.Pcb) : Paced st (dispatch b A id a) := by
  cases a with
  | event e => exact hA st _
  | accepted p =>
    refine .bind (.lift aloof_getSlots) fun s => .ite ?_ ?_
    · refine .bind (openPcb_paced p) fun new => .bind (hA st _) fun v => ?_
      cases v with
      | ok u => exact .pure _
      | error f => exact .bind (hA st _) fun _ => .pure _
    · exact .bind (.lift (aloof_note _)) fun _ => .bind (.lift (aloof_performPcb p _)) fun _ => .pure _

omit hfree in
theorem stepNet_paced : Paced st (stepNet b A) := by
  refine .bind (.lift aloof_get) fun w => ?_
  cases w.net.next with
  | none => exact .pure _
  | some r =>
    refine .bind (.lift (aloof_modify fun _ => rfl)) fun _ => .bind (.lift (aloof_notes _)) fun _ => ?_
    rcases r.value with ⟨i, delivery⟩
    dsimp only
    generalize (r.net.pcb i).owner = owner
    cases delivery with
    | nothing => exact .pure _
    | accept new =>
      cases owner with
      | none => exact .bind (.lift (aloof_performPcb _ _)) fun _ => .pure _
      | some listener => exact .bind (dispatch_paced hA _ _) fun _ => .pure _
    | reset =>
      refine .bind (.lift (aloof_modify fun _ => rfl)) fun _ => ?_
      cases owner with
      | none => exact .pure _
      | some id => exact .bind (.lift (aloof_note _)) fun _ => .bind (dispatch_paced hA _ _) fun _ => .pure _
    | event e =>
      cases owner with
      | none =>
        cases e with
        | recv data => exact .bind (.lift (aloof_modify fun _ => rfl)) fun _ => .pure _
        | _ => exact .pure _
      | some id =>
        refine .bind (dispatch_paced hA _ _) fun v => ?_
        cases v with
        | ok u => exact .pure _
        | error f => exact .bind (.lift (aloof_note _)) fun _ => .pure _

omit hfree in
theorem settleNet_paced (k done : Nat) : Paced st (settleNet b A k done) := by
  induction k generalizing done with
  | zero => exact .bind (.lift (aloof_note _)) fun _ => .pure _
  | succ k ih => exact .bind (hA st _) fun _ => .ite (ih _) (.pure _)

theorem answer_paced (k : Nat) (r : Req H) : Paced st (answer b A free k r) := by
  cases r with
  | ask id o => exact operate_paced hA hfree k id o
  | insert layer => exact insert_paced layer
  | wrap inner layer => exact wrap_paced inner layer
  | openPcb p => exact openPcb_paced p
  | dispatch id a => exact dispatch_paced hA id a
  | step => exact stepNet_paced hA
  | settle => exact settleNet_paced hA _ _
  | tick =>
    refine .bind (.lift aloof_get) fun w => .bind (.lift (aloof_modify fun _ => rfl)) fun _ => .forM (fun id => ?_) _
    exact .bind (dispatch_paced hA _ _) fun _ => .pure _
  | pcb p o => exact .lift (aloof_performPcb p o)
  | register id kind code =>
    refine .lift (.bind aloof_getSlots fun s => ?_)
    split
    · exact .bind (aloof_modifySlots (fun _ => rfl) fun _ => rfl) fun _ => .pure _
    · exact .pure _
  | clearCallbacks id => exact .lift (aloof_modifySlots (f := fun s => s.clearCallbacks id) (fun _ => rfl) fun _ => rfl)
  | modifyLayer id f =>
    refine .lift (.bind (aloof_lookup id) fun e => ?_)
    split
    · exact .bind (aloof_modifySlots (fun _ => rfl) fun _ => rfl) fun _ => .pure _
    · exact .pure _
  | _ =>
    refine .lift fun w a w' h => ?_
    cases h
    exact ⟨rfl, rfl⟩

omit hA hfree in
/-- **A request is answered one event after the other**, at whatever stage the pump is. -/
theorem exec_paced (k : Nat) (st : Stage) (r : Req H) : Paced st (exec b k r) := by
  induction k generalizing st r with
  | zero => exact .lift (aloof_throw _)
  | succ k ih => exact answer_paced ih (fun st => freeEntry_paced (ih st) k) k r

end

end Traced

/-! ## What is seen of it -/

/-- How many pumps begin with an incident. -/
def Incident.pumps : Incident H → Int
  | .began => 1
  | .ceased => -1
  | _ => 0

/-- How many deliveries begin with it. -/
def Incident.deliveries : Incident H → Int
  | .taken _ => 1
  | .delivered => -1
  | _ => 0

/-- How many callbacks begin with it. -/
def Incident.callbacks : Incident H → Int
  | .called _ _ => 1
  | .returned => -1
  | _ => 0

/-- How many pumps, deliveries or callbacks are under way. -/
def underway (f : Incident H → Int) (t : List (Incident H)) : Int := (t.map f).sum

/-- The events that came into the queue, in their order. -/
def arrivals (t : List (Incident H)) : List (Queued H) :=
  t.filterMap fun
    | .queued q => some q
    | _ => none

/-- The events that were taken from the queue and delivered, in their order. -/
def departures (t : List (Incident H)) : List (Queued H) :=
  t.filterMap fun
    | .taken q => some q
    | _ => none

/-- What holds at the moment when `u` has happened and `v` is still to come, where `queue` waited at first. -/
structure InTurn (queue : List (Queued H)) (u v : List (Incident H)) : Prop where
  /-- There is one pump at most. -/
  pumps : underway Incident.pumps u ≤ 1
  /-- It delivers one event at most, and nobody else does. -/
  deliveries : underway Incident.deliveries u ≤ underway Incident.pumps u
  /-- One callback runs at most, and only for the event that is delivered. -/
  callbacks : underway Incident.callbacks u ≤ underway Incident.deliveries u
  returns : 0 ≤ underway Incident.callbacks u
  /-- Of all events that have come, those that came first have been delivered and the others wait; they are delivered in
  their order, and before whatever comes from now on. -/
  order : ∃ waiting, queue ++ arrivals u = departures u ++ waiting ∧ departures v <+: waiting ++ arrivals v

namespace Stage

/-- How many pumps, deliveries or callbacks there are at a stage. -/
def pumps : Stage → Int
  | .rest => 0
  | .pumping | .delivering | .calling => 1

def deliveries : Stage → Int
  | .rest | .pumping => 0
  | .delivering | .calling => 1

def callbacks : Stage → Int
  | .rest | .pumping | .delivering => 0
  | .calling => 1

end Stage

namespace Traced

open Incident

variable {c c' : Pace H} {t u v : List (Incident H)}

/-- What is under way after a log is so at the stage that it has led to. -/
theorem Passes.underway (h : Passes Pace.Step c t c') :
    c'.stage.pumps = c.stage.pumps + underway Incident.pumps t ∧
      c'.stage.deliveries = c.stage.deliveries + underway Incident.deliveries t ∧
        c'.stage.callbacks = c.stage.callbacks + underway Incident.callbacks t := by
  induction h with
  | nil c => simp [Conduit.underway]
  | @cons c c' c'' i t hi _ ih =>
    -- one incident counts for as much as the stage changes
    have hstep : c'.stage.pumps = c.stage.pumps + i.pumps ∧ c'.stage.deliveries = c.stage.deliveries + i.deliveries ∧
        c'.stage.callbacks = c.stage.callbacks + i.callbacks := by
      cases hi with
      | aside h c =>
        cases i with
        | reentered | vanished | born | farewell | freed =>
          simp [Incident.pumps, Incident.deliveries, Incident.callbacks]
        | _ => cases h
      | _ =>
        simp [Incident.pumps, Incident.deliveries, Incident.callbacks, Stage.pumps, Stage.deliveries,
          Stage.callbacks]
    simp only [Conduit.underway, List.map_cons, List.sum_cons] at ih ⊢
    omega

/-- What has come, and what waited at first, has been delivered or waits. -/
theorem Passes.order (h : Passes Pace.Step c t c') : c.waiting ++ arrivals t = departures t ++ c'.waiting := by
  induction h with
  | nil c => simp [arrivals, departures]
  | @cons c c' c'' i t hi _ ih =>
    unfold arrivals departures at ih ⊢
    cases hi with
    | queued q l st => simpa using ih
    | taken q l => simpa using ih
    | aside h c =>
      cases i with
      | reentered | vanished | born | farewell | freed => simpa using ih
      | _ => cases h
    | _ => simpa using ih

/-- **What an observer allows, happens in turn.** -/
theorem Passes.inTurn {queue : List (Queued H)} (h : Passes Pace.Step ⟨queue, .rest⟩ (u ++ v) c') :
    InTurn queue u v := by
  obtain ⟨c, hu, hv⟩ := h.split
  obtain ⟨hpumps, hdeliveries, hcallbacks⟩ := hu.underway
  have hstage : c.stage.pumps ≤ 1 ∧ c.stage.deliveries ≤ c.stage.pumps ∧ c.stage.callbacks ≤ c.stage.deliveries ∧
      0 ≤ c.stage.callbacks := by
    cases c.stage <;> simp [Stage.pumps, Stage.deliveries, Stage.callbacks]
  -- at first nothing is under way
  change c.stage.pumps = 0 + _ at hpumps
  change c.stage.deliveries = 0 + _ at hdeliveries
  change c.stage.callbacks = 0 + _ at hcallbacks
  refine ⟨?_, ?_, ?_, ?_, c.waiting, hu.order, c'.waiting, hv.order.symm⟩
  all_goals omega

/-- **Events are delivered one after the other, in the order in which they came**, whatever callbacks and layers ask
meanwhile. When a run has ended, nothing is under way; and if nothing was at first, every event was delivered. -/
theorem run_inTurn {α : Type} (b : Behaviour H) (fuel : Nat) (p : Act H α) (w : World H) :
    (run b fuel p).erase = Stack.run b fuel p ∧
      (∀ u v, (run b fuel p).log w = u ++ v → InTurn w.stack.queue u v) ∧
      Exec.Ends (Stack.run b fuel p) w fun _ w' =>
        underway Incident.pumps ((run b fuel p).log w) = 0 ∧
          w.stack.queue ++ arrivals ((run b fuel p).log w) = departures ((run b fuel p).log w) ++ w'.stack.queue ∧
          (w.stack.depth = 0 → w.stack.pumping = false → w.stack.queue = [] → w'.stack.queue = []) := by
  have herase := run_erases b fuel p
  have hpaced : Paced .rest (run b fuel p) := .program (exec_paced fuel .rest) p
  obtain ⟨c, hlog, hend⟩ := hpaced w (fun h => absurd rfl h)
  refine ⟨herase, fun u v huv => ?_, ?_⟩
  · rw [huv] at hlog
    exact hlog.inTurn
  · rw [← herase]
    intro a w' hrun
    obtain ⟨rfl, -⟩ := hend a w' hrun
    refine ⟨?_, hlog.order, fun hd hp hq => ?_⟩
    · obtain ⟨hpumps, -, -⟩ := hlog.underway
      change (0 : Int) = 0 + _ at hpumps
      omega
    · -- no layer runs afterwards and no pump, so nothing has been left to be delivered
      rw [herase] at hrun
      have hrests := program_rests (exec_settles b fuel) p (.inr (.inr hq))
      have hresting : Resting w.stack w'.stack := by
        unfold Exec.Rests at hrests
        rw [show Program.run (Stack.exec b fuel) p w = .ok a w' from hrun] at hrests
        exact hrests
      rcases hresting.quiet with h | h | h
      · rw [hresting.depth, hd] at h
        exact absurd h (by simp)
      · rw [hresting.pumping, hp] at h
        cases h
      · exact h

/-- While the callback for the end of one connection runs, it brings another to its end, of which it is told later. -/
theorem run_inTurn_meddle : ∃ u v w', (run meddling 20 meddle).log { shared := (), memory := () } = u ++ v ∧
    Stack.run meddling 20 meddle { shared := (), memory := () } = .ok () w' ∧ InTurn [] u v ∧
    underway Incident.callbacks u = 1 ∧ (arrivals u).map (·.source) = [⟨0, 0⟩, ⟨1, 0⟩, ⟨2, 0⟩] ∧
    (departures u).map (·.source) = [⟨0, 0⟩, ⟨1, 0⟩] ∧ arrivals (u ++ v) = departures (u ++ v) := by
  have hreaches : Exec.reaches (Stack.run meddling 20 meddle) { shared := (), memory := () }
      (fun _ _ => true) = true := by decide +kernel
  obtain ⟨_, w', hrun, -⟩ := Exec.exists_of_reaches hreaches
  obtain ⟨-, hturn, hend⟩ := run_inTurn meddling 20 meddle { shared := (), memory := () }
  obtain ⟨-, hall, hqueue⟩ := hend () w' hrun
  -- the moment at which the callback has done this
  have hsplit := (List.take_append_drop 16 ((run meddling 20 meddle).log { shared := (), memory := () })).symm
  refine ⟨_, _, w', hsplit, hrun, hturn _ _ hsplit, ?_, ?_, ?_, ?_⟩
  · decide +kernel
  · decide +kernel
  · decide +kernel
  · rw [← hsplit]
    simpa [hqueue rfl rfl rfl] using hall

end Traced

end Conduit
