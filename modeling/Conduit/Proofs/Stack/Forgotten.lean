import Conduit.Proofs.Stack.Recorded

/-!
# Runs without their record

The record of a run plays no part in what is done.

* `Recorded.forget_run`: **a recorded run is a run of the stack, once its record is forgotten.**
* `Recorded.exists_record`: every run of the stack has a record.
-/

namespace Conduit

namespace Recorded

open Stack

variable {H : Host} {α β : Type}

@[simp] theorem forget_pure (a : α) : forget (pure a : Recorded H α) = pure a := rfl

@[simp] theorem forget_bind (x : Recorded H α) (f : α → Recorded H β) :
    forget (x >>= f) = forget x >>= fun a => forget (f a) := by
  show Prod.fst <$> (x.whole >>= fun p => (f p.1).whole >>= fun q => pure (q.1, p.2 ++ q.2)) =
    Prod.fst <$> x.whole >>= fun a => Prod.fst <$> (f a).whole
  simp only [map_eq_pure_bind, bind_assoc, pure_bind]

@[simp] theorem forget_lift (x : Exec H α) : forget (lift x) = x := by
  show Prod.fst <$> (x >>= fun a => pure (a, ([] : List (Mark H)))) = x
  simp only [map_eq_pure_bind, bind_assoc, pure_bind, bind_pure]

@[simp] theorem forget_record (t : List (Mark H)) : forget (record t) = pure () := rfl

/-- A method of a layer at work without its record. -/
def forgetRunning (x : Running H α) : Stack.Running H α := fun flag => forget (x flag)

@[simp] theorem forgetRunning_pure (a : α) : forgetRunning (pure a : Running H α) = pure a := rfl

@[simp] theorem forgetRunning_bind (x : Running H α) (f : α → Running H β) :
    forgetRunning (x >>= f) = forgetRunning x >>= fun a => forgetRunning (f a) := by
  funext flag
  exact forget_bind (x flag) fun r => f r.1 r.2

@[simp] theorem forgetRunning_set (flag : Bool) : forgetRunning (set flag : Running H PUnit) = set flag := rfl

@[simp] theorem forgetRunning_lift (x : Recorded H α) :
    forgetRunning (monadLift x : Running H α) = monadLift (forget x) := by
  funext flag
  exact forget_bind x fun a => pure (a, flag)

theorem forget_program {I : Interface} (answer : (r : I.Req) → Recorded H (I.Ans r)) (p : Program I α) :
    forget (p.run answer) = p.run fun r => forget (answer r) := by
  induction p with
  | done a => rfl
  | ask r next ih => simp only [Program.run_ask, forget_bind, ih]

theorem forgetRunning_program {I : Interface} (answer : (r : I.Req) → Running H (I.Ans r)) (p : Program I α) :
    forgetRunning (p.run answer) = p.run fun r => forgetRunning (answer r) := by
  induction p with
  | done a => rfl
  | ask r next ih => simp only [Program.run_ask, forgetRunning_bind, ih]

section

variable {b : Behaviour H} {k : Nat}

/-- The answers without their records. -/
def forgetAnswers (answers : Answers H) : Stack.Answers H := fun r => forget (answers r)

/-- A look at the slots that is for the record only. -/
theorem getSlots_bind (x : Exec H α) : (getSlots >>= fun _ => x) = x := by
  funext w
  rfl

theorem forget_enqueue (id : Handle) (e : Event) : forget (enqueue (H := H) id e) = Stack.enqueue id e := by
  unfold enqueue
  simp only [forget_bind, forget_lift, forget_record, pure_bind, getSlots_bind]

theorem forget_insert (layer : Layer H) : forget (insert b layer) = Stack.insert b layer := by
  unfold insert
  simp only [forget_bind, forget_lift, forget_record, pure_bind, getSlots_bind]

theorem forget_openPcb (p : PcbRef H.Pcb) : forget (openPcb b p) = Stack.openPcb b p := by
  unfold openPcb Stack.openPcb
  simp only [forget_bind, forget_lift, forget_insert]

theorem forget_wrap (inner : Handle) (layer : Layer H) : forget (wrap b inner layer) = Stack.wrap b inner layer := by
  unfold wrap Stack.wrap
  simp only [forget_bind, forget_lift]
  congr 1
  funext e
  cases e with
  | none => rfl
  | some e =>
    simp only
    split
    · rfl
    · simp only [forget_bind, forget_lift, forget_insert, forget_pure]

theorem forget_answerLayer (answers : Answers H) (me : Handle) (r : Layer.Req H) :
    forgetRunning (answerLayer b answers me r) = Stack.answerLayer b (forgetAnswers answers) me r := by
  cases r with
  | ask id o => exact forgetRunning_lift _
  | emit e =>
    refine (forgetRunning_lift _).trans ?_
    rw [forget_enqueue]
    rfl
  | fail f =>
    refine (forgetRunning_bind (monadLift (enqueue (H := H) me (.error f)) : Running H Unit) _).trans ?_
    rw [forgetRunning_lift, forget_enqueue]
    rfl
  | cover inner l => exact forgetRunning_lift _
  | _ =>
    funext flag
    exact forget_lift _

theorem forget_answerCustom (answers : Answers H) (me : Handle) (r : (Layer.customIo H).Req) :
    forgetRunning (answerCustom b answers me r) = Stack.answerCustom b (forgetAnswers answers) me r := by
  cases r with
  | inl r => exact forget_answerLayer answers me r
  | inr r => exact forgetRunning_lift _

theorem forget_runMethod (answers : Answers H) (me : Handle) (m : Method) (layer : Layer H) :
    forgetRunning (runMethod b answers me m layer) = Stack.runMethod b (forgetAnswers answers) me m layer := by
  have hcustom : (fun r => forgetRunning (answerCustom b answers me r)) =
      Stack.answerCustom b (forgetAnswers answers) me := funext (forget_answerCustom answers me)
  cases layer with
  | custom l => simp only [runMethod, Stack.runMethod, forgetRunning_bind, forgetRunning_program, hcustom,
      forgetRunning_pure]
  | _ => simp only [runMethod, Stack.runMethod, forgetRunning_bind, forgetRunning_program, forget_answerLayer,
      forgetRunning_pure]

theorem forget_run_runMethod (answers : Answers H) (me : Handle) (m : Method) (layer : Layer H) (flag : Bool) :
    forget ((runMethod b answers me m layer).run flag) =
      (Stack.runMethod b (forgetAnswers answers) me m layer).run flag := by
  rw [← forget_runMethod]
  rfl

theorem forget_withLayer (answers : Answers H) (free : Handle → Recorded H Unit) (id : Handle) (m : Method) :
    forget (withLayer b answers free id m) =
      Stack.withLayer b (forgetAnswers answers) (fun id => forget (free id)) id m := by
  unfold withLayer Stack.withLayer
  simp only [forget_bind, forget_lift]
  congr 1
  funext e
  cases e with
  | none => rfl
  | some e =>
    cases hl : e.layer with
    | none => simp only [hl, forget_pure]
    | some layer =>
      simp only [hl, forget_bind, forget_lift, forget_run_runMethod]
      congr 1
      funext _
      congr 1
      funext r
      obtain ⟨⟨layer, reply⟩, release⟩ := r
      simp only [forget_record, pure_bind]
      congr 1
      funext _
      congr 1
      funext s
      split
      · simp only [forget_bind, forget_lift]
        congr 1
        funext _
        split <;> simp only [forget_bind, forget_pure]
      · simp only [forget_bind, forget_lift, forget_pure]

theorem forget_dealloc (answers : Answers H) (id : Handle) :
    forget (dealloc b answers id) = Stack.dealloc b (forgetAnswers answers) id := by
  unfold dealloc Stack.dealloc
  simp only [forget_bind, forget_lift]
  congr 1
  funext e
  cases e.bind (·.layer) with
  | none => rfl
  | some layer =>
    simp only [forget_bind, forget_lift]
    rw [forget_run_runMethod]

theorem forget_freeEntry (answers : Answers H) (k : Nat) (id : Handle) :
    forget (freeEntry b answers k id) = Stack.freeEntry b (forgetAnswers answers) k id := by
  induction k generalizing id with
  | zero => exact forget_lift _
  | succ k ih =>
    have hfree : (fun id => forget (freeEntry b answers k id)) = Stack.freeEntry b (forgetAnswers answers) k :=
      funext ih
    unfold freeEntry Stack.freeEntry
    simp only [forget_bind, forget_lift, forget_dealloc, forget_record, pure_bind, getSlots_bind]
    congr 1
    funext _
    congr 1
    funext e
    cases e with
    | none => rfl
    | some e =>
      simp only [forget_bind, forget_lift]
      congr 1
      funext _
      cases e.outer <;> cases e.inner <;> simp only [forget_bind, forget_lift]
      -- there is one below
      all_goals
        congr 1
        funext _
        congr 1
        funext s
        split
        · simp only [forget_bind, forget_lift, ih]
          rw [forget_withLayer, hfree]
        · simp only [forget_lift]

/-! ### Events -/

theorem forget_callback (answers : Answers H) (id : Handle) (kind : CallbackKind) (call : Call)
    (absent : Recorded H Outcome) :
    forget (callback b answers id kind call absent) =
      Stack.callback b (forgetAnswers answers) id kind call (forget absent) := by
  unfold callback Stack.callback
  simp only [forget_bind, forget_lift]
  congr 1
  funext e
  cases e with
  | none => rfl
  | some e =>
    cases hc : e.callbacks.get kind with
    | none => simp only [hc]
    | some code =>
      simp only [hc, forget_bind, forget_lift, forget_record, forget_program, forget_pure, pure_bind, getSlots_bind]
      rfl

theorem forget_settleRecv (answers : Answers H) (free : Handle → Recorded H Unit) (source : Handle)
    (v : Outcome) : forget (settleRecv b answers free source v) =
      Stack.settleRecv b (forgetAnswers answers) (fun id => forget (free id)) source v := by
  unfold settleRecv Stack.settleRecv
  rw [forget_bind, forget_withLayer]
  rfl

theorem forget_deliverToLayer (answers : Answers H) (free : Handle → Recorded H Unit) (outer source : Handle)
    (e : Event) : forget (deliverToLayer b answers free outer source e) =
      Stack.deliverToLayer b (forgetAnswers answers) (fun id => forget (free id)) outer source e := by
  unfold deliverToLayer Stack.deliverToLayer
  rw [forget_bind, forget_withLayer]
  congr 1
  funext v
  generalize hv : (v.bind id : Outcome) = verdict
  cases e with
  | accept new =>
    cases verdict with
    | ok u => rfl
    | error f =>
      simp only [forget_bind, forget_lift]
      rfl
  | recv d => exact forget_settleRecv answers free source verdict
  | _ => rfl

theorem forget_deliverToApp (answers : Answers H) (free : Handle → Recorded H Unit) (me : Handle) (e : Event) :
    forget (deliverToApp b answers free me e) =
      Stack.deliverToApp b (forgetAnswers answers) (fun id => forget (free id)) me e := by
  cases e with
  | accept new =>
    unfold deliverToApp Stack.deliverToApp
    rw [forget_bind, forget_callback]
    congr 1
    funext v
    cases v with
    | ok u => rfl
    | error f =>
      simp only [forget_bind, forget_lift]
      rfl
  | recv data =>
    unfold deliverToApp Stack.deliverToApp
    rw [forget_bind, forget_callback]
    congr 1
    · simp only [forget_bind, forget_lift]
      rfl
    · funext v
      exact forget_settleRecv answers free me v
  | error f => rfl
  | _ =>
    unfold deliverToApp Stack.deliverToApp
    rw [forget_bind, forget_callback]
    rfl

theorem forget_deliver (answers : Answers H) (free : Handle → Recorded H Unit) (q : Queued H) :
    forget (deliver b answers free q) =
      Stack.deliver b (forgetAnswers answers) (fun id => forget (free id)) q := by
  obtain ⟨source, event, route⟩ := q
  unfold deliver Stack.deliver
  cases route with
  | sink code =>
    cases event with
    | error reason =>
      simp only [forget_bind, forget_lift]
      cases code with
      | none => rfl
      | some code =>
        simp only [forget_bind, forget_lift, forget_record, forget_program, pure_bind, getSlots_bind]
        rfl
    | _ => rfl
  | layer outer => exact forget_deliverToLayer answers free _ _ _
  | resolve =>
    simp only [forget_bind, forget_lift]
    congr 1
    funext e
    cases e with
    | none => simp only [forget_lift]
    | some e =>
      cases ho : e.outer with
      | none => simp only [ho, forget_deliverToApp]
      | some outer => simp only [ho, forget_deliverToLayer]

theorem forget_drain (answers : Answers H) (free : Handle → Recorded H Unit) (k : Nat) :
    forget (drain b answers free k) = Stack.drain b (forgetAnswers answers) (fun id => forget (free id)) k := by
  induction k with
  | zero => exact forget_lift _
  | succ k ih =>
    unfold drain Stack.drain
    simp only [forget_bind, forget_lift]
    congr 1
    funext s
    cases hq : s.queue with
    | nil => simp only [forget_pure]
    | cons q rest => simp only [forget_bind, forget_lift, forget_deliver, ih]

theorem forget_pump (answers : Answers H) (free : Handle → Recorded H Unit) (k : Nat) :
    forget (pump b answers free k) = Stack.pump b (forgetAnswers answers) (fun id => forget (free id)) k := by
  unfold pump Stack.pump
  simp only [forget_bind, forget_lift]
  congr 1
  funext s
  split
  · rfl
  · simp only [forget_bind, forget_lift, forget_drain]

/-! ### Requests -/

theorem forget_call (answers : Answers H) (free : Handle → Recorded H Unit) (id : Handle) (o : Op) :
    forget (call b answers free k id o) =
      Stack.call b (forgetAnswers answers) (fun id => forget (free id)) k id o := by
  unfold call Stack.call
  rw [forget_bind, forget_withLayer]
  congr 1
  funext r
  rw [forget_bind, forget_pump]
  congr 1
  funext _
  cases r <;> rfl

theorem forget_operate (answers : Answers H) (free : Handle → Recorded H Unit) (id : Handle) (o : Op) :
    forget (operate b answers free k id o) =
      Stack.operate b (forgetAnswers answers) (fun id => forget (free id)) k id o := by
  cases o with
  | abort =>
    unfold operate Stack.operate
    simp only [forget_bind, forget_lift]
    congr 1
    funext s
    split
    · simp only [forget_bind, forget_lift, forget_record, pure_bind, getSlots_bind]
      rw [forget_withLayer]
      congr 1
      funext _
      congr 1
      funext _
      congr 1
      funext s
      split
      · simp only [forget_bind, forget_enqueue, forget_pump]
      · exact forget_pump _ _ _
    · rfl
  | setPoll n =>
    unfold operate Stack.operate
    simp only [forget_bind, forget_lift]
    congr 1
    funext s
    split
    · simp only [forget_bind, forget_lift]
      rw [forget_call]
    · rfl
  | lower e =>
    unfold operate Stack.operate
    rw [forget_bind, forget_lift, forget_call]
  | _ => exact forget_call answers free id _

theorem forget_dispatch (answers : Answers H) (id : Handle) (a : Arrival H.Pcb) :
    forget (dispatch b answers id a) = Stack.dispatch b (forgetAnswers answers) id a := by
  cases a with
  | event e => rfl
  | accepted p =>
    unfold dispatch Stack.dispatch
    simp only [forget_bind, forget_lift]
    congr 1
    funext s
    split
    · simp only [forget_bind, forget_openPcb]
      congr 1
      funext new
      show _ >>= _ = _ >>= _
      congr 1
      funext v
      cases v with
      | ok u => rfl
      | error f =>
        simp only [forget_bind, forget_pure]
        rfl
    · simp only [forget_bind, forget_lift, forget_pure]

theorem forget_stepNet (answers : Answers H) :
    forget (stepNet b answers) = Stack.stepNet b (forgetAnswers answers) := by
  unfold stepNet Stack.stepNet
  simp only [forget_bind, forget_lift]
  congr 1
  funext w
  cases hn : w.net.next with
  | none => rfl
  | some r =>
    simp only [forget_bind, forget_lift]
    congr 1
    funext _
    congr 1
    funext _
    generalize r.value.2 = delivery
    generalize (r.net.pcb r.value.1).owner = owner
    cases delivery with
    | nothing => rfl
    | accept new => cases owner <;> simp only [forget_bind, forget_lift, forget_dispatch, forget_pure]
    | reset => cases owner <;> simp only [forget_bind, forget_lift, forget_dispatch, forget_pure]
    | event e =>
      cases owner with
      | none =>
        cases e <;> simp only [forget_bind, forget_lift, forget_pure]
      | some id =>
        simp only [forget_bind, forget_dispatch]
        congr 1
        funext v
        cases v <;> simp only [forget_bind, forget_lift, forget_pure]

theorem forget_settleNet (answers : Answers H) (k done : Nat) :
    forget (settleNet b answers k done) = Stack.settleNet b (forgetAnswers answers) k done := by
  induction k generalizing done with
  | zero =>
    unfold settleNet Stack.settleNet
    rw [forget_bind, forget_lift]
    rfl
  | succ k ih =>
    unfold settleNet Stack.settleNet
    rw [forget_bind]
    show _ >>= _ = _ >>= _
    congr 1
    funext r
    cases r with
    | true => exact ih _
    | false => rfl

theorem forget_forM (l : List α) (f : α → Recorded H PUnit) : forget (l.forM f) = l.forM fun a => forget (f a) := by
  induction l with
  | nil => rfl
  | cons a l ih =>
    show forget (f a >>= fun _ => l.forM f) = forget (f a) >>= fun _ => l.forM fun a => forget (f a)
    rw [forget_bind, ih]

theorem forget_answer (answers : Answers H) (free : Handle → Recorded H Unit) (r : Req H) :
    forget (answer b answers free k r) =
      Stack.answer b (forgetAnswers answers) (fun id => forget (free id)) k r := by
  cases r with
  | ask id o => exact forget_operate answers free id o
  | insert layer => exact forget_insert layer
  | wrap inner layer => exact forget_wrap inner layer
  | openPcb p => exact forget_openPcb p
  | dispatch id a => exact forget_dispatch answers id a
  | step => exact forget_stepNet answers
  | settle => exact forget_settleNet answers _ _
  | tick =>
    unfold answer Stack.answer
    simp only [forget_bind, forget_lift, forget_forM, forget_dispatch]
    rfl
  | _ => exact forget_lift _

theorem forget_exec (k : Nat) : forgetAnswers (exec b k) = Stack.exec b k := by
  induction k with
  | zero =>
    funext r
    exact forget_lift _
  | succ k ih =>
    funext r
    have hfree : (fun id => forget (freeEntry b (exec b k) k id)) = Stack.freeEntry b (Stack.exec b k) k := by
      funext id
      rw [forget_freeEntry, ih]
    show forget (answer b (exec b k) (freeEntry b (exec b k) k) k r) = _
    rw [forget_answer, hfree, ih]
    rfl

/-- **A recorded run is a run of the stack, once its record is forgotten.** -/
theorem forget_run (fuel : Nat) (p : Act H α) : forget (run b fuel p) = Stack.run b fuel p := by
  unfold run Stack.run
  rw [forget_program, ← forget_exec]
  rfl

end

/-- Every run of the stack has a record. -/
theorem exists_record {x : Recorded H α} {y : Exec H α} (h : forget x = y) {a : α} {w w' : World H}
    (hy : y w = .ok a w') : ∃ t, x w = .ok (a, t) w' := by
  subst h
  change EStateM.map Prod.fst x.whole w = _ at hy
  unfold EStateM.map at hy
  split at hy
  · rename_i r w₁ hx
    cases hy
    exact ⟨r.2, hx⟩
  · cases hy

end Recorded

end Conduit
