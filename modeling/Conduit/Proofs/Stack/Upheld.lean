import Conduit.Proofs.Stack.Diary
import Conduit.Proofs.Stack.Ledger

/-!
# What the record goes on with

A relation between the record of a run and the world is upheld by a whole run if each elementary step upholds it: that
a connection comes or goes, that something else is recorded, that a note is written. Nothing is assumed of the layers
and the callbacks of the application but that what they ask for upholds it as well.

* `Recorded.Upholds`: what was true of the record and the world stays true.
* `Recorded.Steady`: the elementary steps uphold it.
* `Recorded.Upheld`: so do all that the stack asks for while it answers, and the application's programs.
* `Recorded.exec_upholds`: every request upholds it.
-/

namespace Conduit.Recorded

open Exec Stack Slots Mark

variable {H : Host} {b : Behaviour H} {α β : Type} {J : List (Mark H) → World H → Prop} {h t : List (Mark H)}
  {w : World H} {id : Handle}

/-- What `J` says of the record and the world is true afterwards if it was before. -/
def Upholds (J : List (Mark H) → World H → Prop) (x : Recorded H α) : Prop :=
  ∀ h w, J h w → Ends x w fun _ t w' => J (h ++ t) w'

theorem upholds_pure (a : α) : Upholds J (pure a : Recorded H α) := fun h w hj => by
  rw [ends_pure, List.append_nil]
  exact hj

instance : LawfulMonad (Recorded H) :=
  LawfulMonad.mk' (Recorded H)
    (fun x => by
      show (x.whole >>= fun p => pure (p.1, p.2 ++ [])) = x
      simp only [List.append_nil]
      exact bind_pure x.whole)
    (fun a f => by
      show ((pure (a, []) : Exec H _) >>= fun p => (f p.1).whole >>= fun q => pure (q.1, p.2 ++ q.2)) = f a
      simp only [pure_bind, List.nil_append]
      exact bind_pure (f a).whole)
    (fun x f g => by
      show (x.whole >>= fun p => (f p.1).whole >>= fun q => pure (q.1, p.2 ++ q.2)) >>=
          (fun p => (g p.1).whole >>= fun q => pure (q.1, p.2 ++ q.2)) =
        x.whole >>= fun p => ((f p.1).whole >>= fun q => (g q.1).whole >>= fun r => pure (r.1, q.2 ++ r.2)) >>=
          fun q => pure (q.1, p.2 ++ q.2)
      simp only [bind_assoc, pure_bind, List.append_assoc])

theorem Upholds.bind {x : Recorded H α} {f : α → Recorded H β} (hx : Upholds J x) (hf : ∀ a, Upholds J (f a)) :
    Upholds J (x >>= f) := fun h w hj => by
  refine (ends_bind _ _).2 ((hx h w hj).mono fun a t w' hj' => (hf a _ w' hj').mono fun c u w'' hj'' => ?_)
  rw [← List.append_assoc]
  exact hj''

theorem upholds_lift {x : Exec H α} (hx : ∀ h, Exec.Upholds (J h) x) : Upholds J (lift x) := fun h w hj => by
  rw [ends_lift]
  refine (hx h w hj).mono fun a w' hj' => ?_
  rw [List.append_nil]
  exact hj'

theorem upholds_throw (e : Halt) : Upholds J (lift (throw e) : Recorded H α) := fun h w _ => by
  rw [ends_lift]
  exact ends_throw e

/-- What is read of the slots upholds anything, and may be relied on. -/
theorem upholds_getSlots {f : Slots H → Recorded H β}
    (hf : ∀ h w, J h w → Ends (f w.stack) w fun _ t w' => J (h ++ t) w') : Upholds J (lift getSlots >>= f) :=
  fun h w hj => by
    rw [ends_bind, ends_lift, ends_getSlots]
    exact hf h w hj

theorem upholds_lookup {f : Option (Entry H) → Recorded H β} (hf : ∀ e, Upholds J (f e)) :
    Upholds J (lift (lookup id) >>= f) := fun h w hj => by
  rw [ends_bind, ends_lift, ends_lookup]
  exact hf _ h w hj

/-- A program upholds what each of its requests upholds. -/
theorem upholds_program {I : Interface} {answer : (r : I.Req) → Recorded H (I.Ans r)}
    (ha : ∀ r, Upholds J (answer r)) (p : Program I α) : Upholds J (p.run answer) := by
  induction p with
  | done a => exact upholds_pure a
  | ask r next ih => exact (ha r).bind ih

variable {flag : Bool}

theorem upholds_run_lift {x : Recorded H α} (hx : Upholds J x) : Upholds J ((monadLift x : Running H α).run flag) :=
  fun h w hj => (ends_run_lift x).2 (hx h w hj)

theorem upholds_run_bind {x : Running H α} {f : α → Running H β} (hx : ∀ flag, Upholds J (x.run flag))
    (hf : ∀ a flag, Upholds J ((f a).run flag)) : Upholds J ((x >>= f).run flag) := by
  rw [StateT.run_bind]
  exact (hx flag).bind fun r => hf r.1 r.2

theorem upholds_run_program {I : Interface} {answer : (r : I.Req) → Running H (I.Ans r)}
    (ha : ∀ r flag, Upholds J ((answer r).run flag)) (p : Program I α) : ∀ flag, Upholds J ((p.run answer).run flag) := by
  induction p with
  | done a => exact fun flag => upholds_pure _
  | ask r next ih => exact fun flag => upholds_run_bind (ha r) ih

/-! ## Elementary steps -/

/-- Each elementary step of the stack upholds `J`. -/
structure Steady (b : Behaviour H) (J : List (Mark H) → World H → Prop) : Prop where
  /-- No connection comes or goes, and the application remembers the same. -/
  still : ∀ h w w', J h w → w.stack.Settled w'.stack → w'.memory = w.memory → J h w'
  /-- Something else is recorded. -/
  marks : ∀ h t w, births t = [] → departures t = [] → J h w → J (h ++ t) w
  born : ∀ h w name layer, J h w → J (h ++ [.born w.stack.nextHandle]) { w with stack := w.stack.insert name layer }
  freed : ∀ h w id, J h w → w.stack.isAlive id = true → J (h ++ [.freed id]) { w with stack := w.stack.vacate id }
  note : ∀ h w n, J h w → J h { w with memory := b.note n w.memory }
  pcb : ∀ h w p o, J h w → J h { w with memory := (b.pcb p o w.memory).2 }

namespace Steady

variable (hJ : Steady b J)
include hJ

theorem modifySlots {f : Slots H → Slots H} (hf : ∀ s : Slots H, s.Settled (f s)) : Upholds J (lift (modifySlots f)) :=
  upholds_lift fun h w hj => by
    rw [ends_modifySlots]
    exact hJ.still h w _ hj (hf _) rfl

theorem record (ht : births t = []) (hd : departures t = []) : Upholds J (record t) := fun h w hj => by
  rw [ends_record]
  exact hJ.marks h t w ht hd hj

theorem writes (n : Note) : Exec.Upholds (J h) (Stack.note b n) := fun w hj => by
  rw [ends_note]
  exact hJ.note h w n hj

theorem notes (ns : List Note) : Exec.Upholds (J h) (Stack.notes b ns) := Exec.upholds_forM fun n _ => hJ.writes n

omit hJ in
theorem get {f : World H → Recorded H β} (hf : ∀ w, Upholds J (f w)) : Upholds J (lift get >>= f) := fun h w hj => by
  rw [ends_bind, ends_lift, ends_get]
  exact hf w h w hj

/-- What changes neither the slots nor what the application remembers. -/
theorem modify {f : World H → World H} (hs : ∀ w, (f w).stack = w.stack) (hm : ∀ w, (f w).memory = w.memory) :
    Exec.Upholds (J h) (modify f) := fun w hj => by
  rw [ends_modify]
  refine hJ.still h w _ hj ?_ (hm w)
  rw [hs]
  exact .refl _

theorem performPcb (p : PcbRef H.Pcb) (o : PcbOp) : Exec.Upholds (J h) (performPcb b p o) := by
  intro w hj
  unfold Stack.performPcb
  cases p with
  | loopback i =>
    dsimp only
    rw [Exec.ends_bind, ends_get]
    split
    · exact ends_throw _
    · rw [Exec.ends_bind, ends_modify]
      refine (Exec.ends_bind _ _).2 ((hJ.notes _ _ ?_).mono fun _ w' hj' => (Exec.ends_pure _).2 hj')
      exact hJ.still h w _ hj (.refl _) rfl
  | external p =>
    rw [Exec.ends_bind, ends_get]
    dsimp only
    rw [Exec.ends_bind, ends_modify, Exec.ends_pure]
    exact hJ.pcb h w p o hj

theorem newEngine (config : Tls.Config H.Source) (name : Option Tls.ServerName) :
    Exec.Upholds (J h) (Stack.newEngine b config name) := by
  intro w hj
  unfold Stack.newEngine
  rw [Exec.ends_bind, ends_get]
  dsimp only
  rw [Exec.ends_bind, ends_modify, Exec.ends_pure]
  exact hJ.still h w _ hj (.refl _) rfl

theorem enqueue (source : Handle) (e : Event) : Upholds J (enqueue (H := H) source e) := by
  refine upholds_getSlots fun h w hj => ?_
  have hb : births (ending w.stack source e) = [] ∧ departures (ending w.stack source e) = [] := by
    unfold ending
    split
    · split
      · split
        · exact ⟨rfl, rfl⟩
        · exact ⟨rfl, rfl⟩
      · exact ⟨rfl, rfl⟩
    · exact ⟨rfl, rfl⟩
  refine (hJ.record hb.1 hb.2).bind (fun _ => ?_) h w hj
  exact hJ.modifySlots fun s => settled_enqueue e

theorem insert (layer : Layer H) : Upholds J (insert b layer) := by
  refine upholds_getSlots fun h w hj => ?_
  refine (ends_bind _ _).2 ?_
  rw [ends_record, ends_lift, List.append_nil]
  unfold Stack.insert
  rw [Exec.ends_bind, ends_getSlots]
  dsimp only
  rw [Exec.ends_bind, ends_modifySlots, Exec.ends_bind, ends_note, Exec.ends_pure]
  exact hJ.note _ _ _ (hJ.born h w _ layer hj)

theorem openPcb (p : PcbRef H.Pcb) : Upholds J (openPcb b p) :=
  upholds_getSlots fun h w hj =>
    (upholds_lift fun _ => hJ.performPcb p (.attach w.stack.nextHandle)).bind (fun _ => hJ.insert _) h w hj

theorem wrap (inner : Handle) (layer : Layer H) : Upholds J (wrap b inner layer) := by
  refine upholds_lookup fun e => ?_
  split
  · exact upholds_pure _
  · split
    · exact upholds_pure _
    · refine (hJ.insert layer).bind fun outer => ?_
      refine (hJ.modifySlots fun s => settled_link inner outer).bind fun _ => ?_
      exact (upholds_lift fun _ => hJ.writes _).bind fun _ => upholds_pure _

end Steady

/-! ## While requests are answered -/

/-- A request by which the application remembers nothing. -/
def Heedless (r : Req H) : Prop := ∀ m, r ≠ .remember m

/-- What the stack asks for while it answers upholds `J`, and so do the programs of the application. -/
structure Upheld (b : Behaviour H) (J : List (Mark H) → World H → Prop) (A : Answers H) : Prop where
  ask : ∀ id o, Upholds J (A (.ask id o))
  wrap : ∀ inner layer, Upholds J (A (.wrap inner layer))
  step : Upholds J (A .step)
  callback : ∀ code call, Upholds J ((b.callback code call).run A)
  layer : ∀ l me m flag, Upholds J (((b.layer l me m).run (answerCustom b A me)).run flag)

section

variable {A : Answers H} {free : Handle → Recorded H Unit} (hJ : Steady b J)
include hJ

theorem answerLayer_upholds (hask : ∀ id o, Upholds J (A (.ask id o)))
    (hwrap : ∀ inner layer, Upholds J (A (.wrap inner layer))) (me : Handle) (r : Layer.Req H) (flag : Bool) :
    Upholds J ((answerLayer b A me r).run flag) := by
  cases r with
  | ask id o => exact upholds_run_lift (hask id o)
  | emit e => exact upholds_run_lift (hJ.enqueue me e)
  | cover inner l => exact upholds_run_lift (hwrap inner _)
  | fail reason =>
    exact upholds_run_bind (fun _ => upholds_run_lift (hJ.enqueue me (.error reason))) fun _ _ => upholds_pure _
  | inner | pollInterval =>
    refine upholds_lift fun h w hj => ?_
    refine (Stack.ends_run_bind _ _).2 ((Stack.ends_run_lift _).2 ((ends_lookup _).2 ?_))
    exact (Stack.ends_run_pure _).2 hj
  | release => exact upholds_lift fun h w hj => (Exec.ends_pure _).2 hj
  | note n => exact upholds_lift fun h w hj => (Stack.ends_run_lift _).2 (hJ.writes n w hj)
  | pcb p o => exact upholds_lift fun h w hj => (Stack.ends_run_lift _).2 (hJ.performPcb p o w hj)
  | newEngine config name => exact upholds_lift fun h w hj => (Stack.ends_run_lift _).2 (hJ.newEngine config name w hj)
  | shared => exact upholds_lift fun h w hj => (Exec.ends_pure _).2 hj
  | setShared v => exact upholds_lift fun h w hj => (Exec.ends_pure _).2 (hJ.still h w _ hj (.refl _) rfl)

variable (hA : Upheld b J A)
include hA

theorem runMethod_upholds (me : Handle) (m : Method) (layer : Layer H) (flag : Bool) :
    Upholds J ((runMethod b A me m layer).run flag) := by
  have hprogram : ∀ {γ : Type} (p : Program (Layer.io H) γ), ∀ flag, Upholds J ((p.run (answerLayer b A me)).run flag) :=
    fun p => upholds_run_program (answerLayer_upholds hJ hA.ask hA.wrap me) p
  cases layer with
  | plain l => exact upholds_run_bind (hprogram _) fun _ _ => upholds_pure _
  | secure l => exact upholds_run_bind (hprogram _) fun _ _ => upholds_pure _
  | passthrough name => exact upholds_run_bind (hprogram _) fun _ _ => upholds_pure _
  | custom l => exact upholds_run_bind (hA.layer l me m) fun _ _ => upholds_pure _

theorem withLayer_upholds (hfree : ∀ id, Upholds J (free id)) (id : Handle) (m : Method) :
    Upholds J (withLayer b A free id m) := by
  refine upholds_lookup fun e => ?_
  split
  · exact upholds_pure _
  · split
    · exact upholds_pure _
    · rename_i layer _
      refine (hJ.modifySlots (by exact fun s => ⟨tenants_update, rfl, rfl, fun hr => hr⟩)).bind fun _ => ?_
      refine (runMethod_upholds hJ hA id m layer false).bind fun r => ?_
      have hclosing : births (closing (H := H) id m r.1.2) = [] ∧ departures (closing (H := H) id m r.1.2) = [] := by
        unfold closing
        split
        · exact ⟨rfl, rfl⟩
        · exact ⟨rfl, rfl⟩
      refine (hJ.record hclosing.1 hclosing.2).bind fun _ => ?_
      refine (hJ.modifySlots (by exact fun s => ⟨rfl, rfl, rfl, fun hr => hr⟩)).bind fun _ => ?_
      refine upholds_getSlots fun h w hj => ?_
      split
      · refine Upholds.bind (J := J) (hJ.modifySlots fun s => settled_update) (fun _ => ?_) h w hj
        split
        · exact (hfree id).bind fun _ => upholds_pure _
        · exact upholds_pure _
      · exact Upholds.bind (J := J) (upholds_lift fun _ => hJ.writes _) (fun _ => upholds_pure _) h w hj

theorem dealloc_upholds (id : Handle) : Upholds J (dealloc b A id) := by
  refine upholds_lookup fun e => ?_
  split
  · exact upholds_pure _
  · rename_i layer _
    refine (hJ.modifySlots (by exact fun s => ⟨tenants_update, rfl, rfl, fun hr => hr⟩)).bind fun _ => ?_
    refine (runMethod_upholds hJ hA id .dealloc layer false).bind fun _ => hJ.modifySlots ?_
    exact fun s => ⟨rfl, rfl, rfl, fun hr => hr⟩

/-- The connection below one that goes is aborted and freed, if it is still there. -/
theorem freeBelow_upholds {k : Nat} (hfree : ∀ id, Upholds J (freeEntry b A k id)) (id : Handle) (e : Entry H) :
    Upholds J (match e.inner with
      | none => lift (Stack.note b (.trace "connection freed" [id.field, ("layer", e.name)]))
      | some inner => do
        if (← lift getSlots).outer? inner = some id then
          lift (modifySlots fun s => (s.update inner fun i => { i with outer := none }).clearCallbacks inner)
          let _ ← withLayer b A (freeEntry b A k) inner (.op .abort)
          freeEntry b A k inner
        lift (Stack.note b (.trace "connection freed" [id.field, ("layer", e.name)]))) := by
  have hlast : Upholds J (lift (Stack.note b (.trace "connection freed" [id.field, ("layer", e.name)]))) :=
    upholds_lift fun _ => hJ.writes _
  split
  · exact hlast
  · rename_i inner _
    refine upholds_getSlots fun h w hj => ?_
    split
    · refine Upholds.bind (J := J) (hJ.modifySlots ?_) (fun _ => ?_) h w hj
      · exact fun s => settled_update.trans settled_update
      · exact (withLayer_upholds hJ hA hfree inner _).bind fun _ => (hfree inner).bind fun _ => hlast
    · exact hlast h w hj

theorem freeEntry_upholds (k : Nat) : ∀ id, Upholds J (freeEntry b A k id) := by
  induction k with
  | zero => exact fun id => upholds_throw _
  | succ k ih =>
    intro id
    refine (dealloc_upholds hJ hA id).bind fun _ => ?_
    refine upholds_getSlots fun h w hj => ?_
    refine (ends_bind _ _).2 ?_
    rw [ends_record, ends_bind, ends_lift, ends_lookup]
    unfold leaving
    cases he : w.stack.find? id with
    | none =>
      rw [isAlive_eq_false.2 he]
      exact upholds_pure _ h w hj
    | some e =>
      have hid : w.stack.isAlive id = true := isAlive_iff.2 ⟨e, he⟩
      have hrest := freeBelow_upholds hJ hA ih id e
      rw [hid]
      dsimp only
      rw [ends_bind, ends_lift, ends_modifySlots]
      have hj' := hJ.freed h w id hj hid
      cases e.outer with
      | none => exact (hrest _ _ hj').mono fun _ t w' hj'' => by simpa using hj''
      | some outer =>
        refine Ends.mono (Upholds.bind (J := J) (hJ.modifySlots ?_) (fun _ => hrest) _ _ hj') fun _ t w' hj'' => ?_
        · exact fun s => settled_update
        · simpa using hj''

/-! ## Events -/

theorem callback_upholds (id : Handle) (k : CallbackKind) (call : Call) {absent : Recorded H Outcome}
    (habsent : Upholds J absent) : Upholds J (callback b A id k call absent) := by
  refine upholds_lookup fun e => ?_
  split
  · exact habsent
  · split
    · exact habsent
    · rename_i code _
      refine (hJ.modifySlots fun s => settled_update).bind fun _ => ?_
      refine upholds_getSlots fun h w hj => ?_
      refine Upholds.bind (J := J) (hJ.record (by rfl) (by rfl)) (fun _ => ?_) h w hj
      refine (hA.callback code call).bind fun r => ?_
      exact (hJ.modifySlots fun s => settled_update).bind fun _ => upholds_pure _

theorem settleRecv_upholds (hfree : ∀ id, Upholds J (free id)) (source : Handle) (v : Outcome) :
    Upholds J (settleRecv b A free source v) :=
  (withLayer_upholds hJ hA hfree source _).bind fun _ => upholds_pure _

theorem deliverToLayer_upholds (hfree : ∀ id, Upholds J (free id)) (outer source : Handle) (e : Event) :
    Upholds J (deliverToLayer b A free outer source e) := by
  refine (withLayer_upholds hJ hA hfree outer _).bind fun v => ?_
  dsimp only
  generalize (v.bind fun r => r : Outcome) = verdict
  split
  · exact (upholds_lift fun _ => hJ.writes _).bind fun _ => hA.ask _ _
  · exact settleRecv_upholds hJ hA hfree source _
  · exact upholds_pure _

theorem deliverToApp_upholds (hfree : ∀ id, Upholds J (free id)) (me : Handle) (e : Event) :
    Upholds J (deliverToApp b A free me e) := by
  have hnobody : ∀ o : Outcome, Upholds J (pure o : Recorded H Outcome) := fun o => upholds_pure o
  cases e with
  | accept new =>
    refine (callback_upholds hJ hA me .accept _ (hnobody _)).bind fun v => ?_
    split
    · exact upholds_pure _
    · exact (upholds_lift fun _ => hJ.writes _).bind fun _ => hA.ask _ _
  | recv data =>
    refine Upholds.bind (callback_upholds hJ hA me .recv _ ?_) fun v => settleRecv_upholds hJ hA hfree me v
    exact (upholds_lift fun _ => hJ.writes _).bind fun _ => (hA.ask _ _).bind fun _ => hnobody _
  | connected r => exact (callback_upholds hJ hA me .connected _ (hnobody _)).bind fun _ => upholds_pure _
  | eof => exact (callback_upholds hJ hA me .recv _ (hnobody _)).bind fun _ => upholds_pure _
  | sent len => exact (callback_upholds hJ hA me .sent _ (hnobody _)).bind fun _ => upholds_pure _
  | poll => exact (callback_upholds hJ hA me .poll _ (hnobody _)).bind fun _ => upholds_pure _
  | error reason => exact upholds_pure _

theorem deliver_upholds (hfree : ∀ id, Upholds J (free id)) (q : Queued H) : Upholds J (deliver b A free q) := by
  unfold deliver
  split
  · split
    · refine (upholds_lift fun _ => hJ.writes _).bind fun _ => ?_
      split
      · exact upholds_pure _
      · refine upholds_getSlots fun h w hj => ?_
        refine Upholds.bind (J := J) (hJ.record (by rfl) (by rfl)) (fun _ => ?_) h w hj
        exact (hA.callback _ _).bind fun _ => upholds_pure _
    · exact upholds_pure _
  · exact deliverToLayer_upholds hJ hA hfree _ _ _
  · refine upholds_lookup fun e => ?_
    split
    · exact upholds_lift fun _ => hJ.writes _
    · split
      · exact deliverToLayer_upholds hJ hA hfree _ _ _
      · exact deliverToApp_upholds hJ hA hfree _ _

theorem drain_upholds (hfree : ∀ id, Upholds J (free id)) (k : Nat) : Upholds J (drain b A free k) := by
  induction k with
  | zero => exact upholds_throw _
  | succ k ih =>
    refine upholds_getSlots fun h w hj => ?_
    split
    · exact upholds_pure _ h w hj
    · rename_i q rest hq
      refine (ends_bind _ _).2 ?_
      rw [ends_lift, ends_modifySlots]
      have hj' := hJ.still h w { w with stack := { w.stack with queue := rest } } hj
        ⟨rfl, rfl, rfl, fun hr => hr.tail hq⟩ rfl
      exact Upholds.bind (deliver_upholds hJ hA hfree q) (fun _ => ih) h _ hj'

theorem pump_upholds (hfree : ∀ id, Upholds J (free id)) (k : Nat) : Upholds J (pump b A free k) := by
  refine upholds_getSlots fun h w hj => ?_
  split
  · exact upholds_pure _ h w hj
  · refine Upholds.bind (J := J) (hJ.modifySlots (by exact fun s => ⟨rfl, rfl, rfl, fun hr => hr⟩)) (fun _ => ?_) h w hj
    exact (drain_upholds hJ hA hfree k).bind fun _ => hJ.modifySlots (by exact fun s => ⟨rfl, rfl, rfl, fun hr => hr⟩)

/-! ## Requests -/

theorem call_upholds (hfree : ∀ id, Upholds J (free id)) (k : Nat) (id : Handle) (o : Op) :
    Upholds J (call b A free k id o) := by
  refine (withLayer_upholds hJ hA hfree id _).bind fun r => (pump_upholds hJ hA hfree k).bind fun _ => ?_
  split
  · exact upholds_pure _
  · exact upholds_pure _

theorem operate_upholds (hfree : ∀ id, Upholds J (free id)) (k : Nat) (id : Handle) (o : Op) :
    Upholds J (operate b A free k id o) := by
  unfold operate
  split
  · refine upholds_getSlots fun h w hj => ?_
    split
    · have haborting : births (aborting w.stack id) = [] ∧ departures (aborting w.stack id) = [] := by
        unfold aborting
        split
        · split
          · exact ⟨rfl, rfl⟩
          · exact ⟨rfl, rfl⟩
        · exact ⟨rfl, rfl⟩
      refine (ends_bind _ _).2 ?_
      rw [ends_lift, ends_getSlots]
      refine Upholds.bind (J := J) (hJ.record haborting.1 haborting.2) (fun _ => ?_) h w hj
      refine (upholds_lift fun _ => hJ.writes _).bind fun _ => ?_
      refine (withLayer_upholds hJ hA hfree id _).bind fun _ => ?_
      have hpump := pump_upholds hJ hA hfree k
      refine upholds_getSlots fun h w hj => ?_
      split
      · exact Upholds.bind (J := J) (hJ.enqueue id _) (fun _ => (hfree id).bind fun _ => hpump) h w hj
      · exact hpump h w hj
    · exact upholds_pure _ h w hj
  · refine upholds_getSlots fun h w hj => ?_
    split
    · exact Upholds.bind (J := J) (hJ.modifySlots fun s => settled_update)
        (fun _ => call_upholds hJ hA hfree k id _) h w hj
    · exact upholds_pure _ h w hj
  · exact (upholds_lift fun _ => hJ.writes _).bind fun _ => call_upholds hJ hA hfree k id _
  · exact call_upholds hJ hA hfree k id _

theorem dispatch_upholds (id : Handle) (a : Arrival H.Pcb) : Upholds J (dispatch b A id a) := by
  cases a with
  | event e => exact hA.ask _ _
  | accepted p =>
    refine upholds_getSlots fun h w hj => ?_
    split
    · refine Upholds.bind (J := J) (hJ.openPcb p) (fun new => (hA.ask _ _).bind fun v => ?_) h w hj
      split
      · exact upholds_pure _
      · exact (hA.ask _ _).bind fun _ => upholds_pure _
    · refine Upholds.bind (J := J) (upholds_lift fun _ => hJ.writes _) (fun _ => ?_) h w hj
      exact (upholds_lift fun _ => hJ.performPcb p _).bind fun _ => upholds_pure _

theorem stepNet_upholds : Upholds J (stepNet b A) := by
  have hmodify : ∀ {f : World H → World H}, (∀ w, (f w).stack = w.stack) → (∀ w, (f w).memory = w.memory) →
      Upholds J (lift (modify f) : Recorded H PUnit) := fun hs hm => upholds_lift fun _ => hJ.modify hs hm
  refine Steady.get fun w₀ => ?_
  split
  · exact upholds_pure _
  · rename_i r _
    refine (hmodify (by exact fun _ => rfl) (by exact fun _ => rfl)).bind fun _ => (upholds_lift fun _ => hJ.notes _).bind fun _ => ?_
    dsimp only
    split
    · exact upholds_pure _
    · exact (dispatch_upholds hJ hA _ _).bind fun _ => upholds_pure _
    · exact (upholds_lift fun _ => hJ.performPcb _ _).bind fun _ => upholds_pure _
    · refine (hmodify (by exact fun _ => rfl) (by exact fun _ => rfl)).bind fun _ => ?_
      split
      · exact upholds_pure _
      · refine (upholds_lift fun _ => hJ.writes _).bind fun _ => ?_
        exact (dispatch_upholds hJ hA _ _).bind fun _ => upholds_pure _
    · refine (dispatch_upholds hJ hA _ _).bind fun v => ?_
      split
      · exact upholds_pure _
      · exact (upholds_lift fun _ => hJ.writes _).bind fun _ => upholds_pure _
    · exact (hmodify (by exact fun _ => rfl) (by exact fun _ => rfl)).bind fun _ => upholds_pure _
    · exact upholds_pure _

theorem settleNet_upholds (k : Nat) : ∀ done, Upholds J (settleNet b A k done) := by
  induction k with
  | zero => exact fun done => (upholds_lift fun _ => hJ.writes _).bind fun _ => upholds_pure _
  | succ k ih =>
    refine fun done => hA.step.bind fun more => ?_
    split
    · exact ih _
    · exact upholds_pure _

omit hJ hA in
theorem forM_upholds {γ : Type} {f : γ → Recorded H PUnit} (hf : ∀ a, Upholds J (f a)) (l : List γ) :
    Upholds J (l.forM f) := by
  induction l with
  | nil => exact upholds_pure _
  | cons a l ih => exact (hf a).bind fun _ => ih

/-- **What each elementary step upholds, a request does**, unless the application is told to remember something. -/
theorem answer_upholds (hfree : ∀ id, Upholds J (free id)) (k : Nat) (r : Req H) (hr : Heedless r) :
    Upholds J (answer b A free k r) := by
  have hmodify : ∀ {f : World H → World H}, (∀ w, (f w).stack = w.stack) → (∀ w, (f w).memory = w.memory) →
      Upholds J (lift (modify f) : Recorded H PUnit) := fun hs hm => upholds_lift fun _ => hJ.modify hs hm
  cases r with
  | ask id o => exact operate_upholds hJ hA hfree k id o
  | insert layer => exact hJ.insert layer
  | wrap inner layer => exact hJ.wrap inner layer
  | openPcb p => exact hJ.openPcb p
  | dispatch id a => exact dispatch_upholds hJ hA id a
  | step => exact stepNet_upholds hJ hA
  | settle => exact settleNet_upholds hJ hA _ 0
  | tick =>
    refine Steady.get fun w₀ => (hmodify (by exact fun _ => rfl) (by exact fun _ => rfl)).bind fun _ => ?_
    exact forM_upholds (fun id => (dispatch_upholds hJ hA _ _).bind fun _ => upholds_pure _) _
  | pcb p o => exact upholds_lift fun _ => hJ.performPcb p o
  | newEngine config name => exact upholds_lift fun _ => hJ.newEngine config name
  | note n => exact upholds_lift fun _ => hJ.writes n
  | clearCallbacks id => exact hJ.modifySlots fun s => settled_update
  | setShared v => exact hmodify (fun _ => rfl) fun _ => rfl
  | remember m => exact absurd rfl (hr m)
  | lookup id =>
    refine upholds_lift fun h w hj => ?_
    exact (ends_lookup _).2 hj
  | slots =>
    refine upholds_lift fun h w hj => ?_
    exact ends_getSlots.2 hj
  | net | shared | «recall» =>
    refine upholds_lift fun h w hj => ?_
    exact (Exec.ends_pure _).2 hj
  | newPcb | split id sizes | failCloses id count =>
    refine upholds_lift fun h w hj => ?_
    exact (Exec.ends_pure _).2 (hJ.still h w _ hj (.refl _) rfl)
  | register id kind code =>
    refine upholds_lift fun h w hj => ?_
    simp only [Stack.answer, Exec.ends_bind, ends_getSlots]
    split
    · rw [Exec.ends_bind, ends_modifySlots, Exec.ends_pure]
      exact hJ.still h w _ hj settled_update rfl
    · exact (Exec.ends_pure _).2 hj
  | modifyLayer id f =>
    refine upholds_lift fun h w hj => ?_
    simp only [Stack.answer, Exec.ends_bind, ends_lookup]
    split
    · rw [Exec.ends_bind, ends_modifySlots, Exec.ends_pure]
      exact hJ.still h w _ hj settled_update rfl
    · exact (Exec.ends_pure _).2 hj

end

/-! ## The whole stack -/

/-- The programs of the application uphold `J` where the requests do by which it remembers nothing. -/
structure Allied (b : Behaviour H) (J : List (Mark H) → World H → Prop) : Prop where
  callback : ∀ k, (∀ r, Heedless r → Upholds J (exec b k r)) →
    ∀ code call, Upholds J ((b.callback code call).run (exec b k))
  layer : ∀ k, (∀ r, Heedless r → Upholds J (exec b k r)) →
    ∀ me, (∀ r flag, Upholds J ((answerLayer b (exec b k) me r).run flag)) →
    ∀ l m flag, Upholds J (((b.layer l me m).run (answerCustom b (exec b k) me)).run flag)

/-- **What each elementary step and the application's programs uphold, every request does.** -/
theorem exec_upholds (hJ : Steady b J) (hb : Allied b J) (k : Nat) : ∀ r, Heedless r → Upholds J (exec b k r) := by
  induction k with
  | zero => exact fun r _ => upholds_throw _
  | succ k ih =>
    have hask : ∀ id o, Upholds J (exec b k (.ask id o)) := fun id o => ih _ fun m hm => by cases hm
    have hwrap : ∀ inner layer, Upholds J (exec b k (.wrap inner layer)) := fun i l => ih _ fun m hm => by cases hm
    have hA : Upheld b J (exec b k) := by
      refine ⟨hask, hwrap, ih _ fun m hm => ?_, hb.callback k ih, fun l me m flag => ?_⟩
      · cases hm
      · exact hb.layer k ih me (answerLayer_upholds hJ hask hwrap me) l m flag
    exact fun r hr => answer_upholds hJ hA (freeEntry_upholds hJ hA k) k r hr

section

variable (hm : ∀ h w m, J h w → J h { w with memory := m })
include hm

theorem exec_upholds_any {k : Nat} (hk : ∀ r, Heedless r → Upholds J (exec b k r)) (r : Req H) :
    Upholds J (exec b k r) := by
  by_cases hr : Heedless r
  · exact hk r hr
  · unfold Heedless at hr
    push Not at hr
    obtain ⟨m, rfl⟩ := hr
    cases k with
    | zero => exact upholds_throw _
    | succ k => exact upholds_lift fun h w hj => (ends_modify _).2 (hm h w m hj)

/-- Where nothing is said of what the application remembers, any application is an ally. -/
theorem allied_of_any : Allied b J := by
  refine ⟨fun k hk code call => upholds_program (exec_upholds_any hm hk) _, fun k hk me hl l m => ?_⟩
  refine upholds_run_program (fun r flag => ?_) _
  cases r with
  | inl r => exact hl r flag
  | inr r => exact upholds_run_lift (exec_upholds_any hm hk r)

/-- What each elementary step upholds, all that is asked while the stack answers upholds. -/
theorem upheld_of_any (hJ : Steady b J) (k : Nat) : Upheld b J (exec b k) := by
  have hany := exec_upholds_any hm (exec_upholds hJ (allied_of_any hm) k)
  refine ⟨fun id o => hany _, fun inner layer => hany _, hany _, fun code call => upholds_program hany _, ?_⟩
  intro l me m flag
  refine upholds_run_program (fun r flag => ?_) _ flag
  cases r with
  | inl r => exact answerLayer_upholds hJ (fun id o => hany _) (fun inner layer => hany _) me r flag
  | inr r => exact upholds_run_lift (hany r)

/-- **What each elementary step upholds, everything that an application does upholds.** -/
theorem run_upholds (hJ : Steady b J) (fuel : Nat) (p : Act H α) : Upholds J (run b fuel p) :=
  upholds_program (exec_upholds_any hm (exec_upholds hJ (allied_of_any hm) fuel)) p

end

end Conduit.Recorded
