import Conduit.Proofs.Loopback.Plans
import Conduit.Proofs.Stack.Comes

/-!
# The course of the net below a stack

Whatever an application does with a stack, and whatever its callbacks and layers do meanwhile, the net below takes one of
its courses: it is changed by nothing but operations, steps, timers and plans, one after the other.

* `Stack.Guards`: what is true of the net stays true while requests are answered, and when a run is interrupted.
* `Stack.exec_guards`: **what each happening of a net preserves, every request does.**
* `Stack.run_course`: so the net of a stack takes a course.
* `Stack.run_keeps_bounds`: and so it keeps the bounds of flow control.
-/

namespace Conduit

open Loopback

namespace Stack

open Exec

variable {H : Host} {b : Behaviour H} {α β : Type} {P : Net → Prop} {w : World H} {flag : Bool}

/-- What is true of the net stays true, and is true when the run halts. -/
def Guards (P : Net → Prop) (m : Exec H α) : Prop :=
  ∀ w, P w.net → Comes m w (fun _ w' => P w'.net) fun _ w' => P w'.net

/-- What is true of the net stays true while a layer runs. -/
def GuardsRun (P : Net → Prop) (m : Running H α) : Prop := ∀ flag, Guards P (m.run flag)

/-- What each happening preserves. -/
def Lasts (P : Net → Prop) : Prop := ∀ n h n', P n → n.undergo h = .ok n' → P n'

theorem Guards.bind {m : Exec H α} {f : α → Exec H β} (hm : Guards P m) (hf : ∀ a, Guards P (f a)) : Guards P (m >>= f) :=
  fun w hw => (comes_bind _ _).2 ((hm w hw).mono fun a w' => hf a w')

theorem guards_pure (a : α) : Guards P (pure a : Exec H α) := fun _ hw => hw

theorem guards_forM {γ : Type} {f : γ → Exec H PUnit} {l : List γ} (h : ∀ a, Guards P (f a)) : Guards P (l.forM f) := by
  induction l with
  | nil => exact guards_pure _
  | cons a l ih => exact (h a).bind fun _ => ih

theorem guards_modify {f : World H → World H} (hf : ∀ w, (f w).net = w.net) : Guards P (modify f) := fun w hw => by
  rw [comes_modify]
  show P (f w).net
  rw [hf]
  exact hw

theorem guards_modifySlots (f : Slots H → Slots H) : Guards P (modifySlots f) := guards_modify fun _ => rfl

theorem guards_note (n : Note) : Guards P (note b n) := guards_modify fun _ => rfl

theorem guards_notes (ns : List Note) : Guards P (notes b ns) := guards_forM guards_note

/-- What is read of the world may be anything. -/
theorem guards_get {f : World H → Exec H β} (hf : ∀ w, Guards P (f w)) : Guards P (get >>= f) := fun w hw => by
  rw [comes_bind, comes_get]
  exact hf w w hw

theorem guards_getSlots {f : Slots H → Exec H β} (hf : ∀ s, Guards P (f s)) : Guards P (getSlots >>= f) := fun w hw => by
  rw [comes_bind, comes_getSlots]
  exact hf _ w hw

theorem guards_lookup {id : Handle} {f : Option (Entry H) → Exec H β} (hf : ∀ e, Guards P (f e)) :
    Guards P (lookup id >>= f) := fun w hw => by
  rw [comes_bind, comes_lookup]
  exact hf _ w hw

theorem guards_throw (e : Halt) : Guards P (throw e : Exec H α) := fun _ hw => hw

theorem guards_program {I : Interface} {answers : (r : I.Req) → Exec H (I.Ans r)} (ha : ∀ r, Guards P (answers r))
    (p : Program I α) : Guards P (p.run answers) := by
  induction p with
  | done a => exact guards_pure a
  | ask r next ih => exact (ha r).bind ih

variable (hP : Lasts P)
include hP

theorem performPcb_guards (p : PcbRef H.Pcb) (o : PcbOp) : Guards P (performPcb b p o) := by
  cases p with
  | loopback i =>
    intro w hw
    unfold performPcb
    rw [comes_bind, comes_get]
    split
    · exact (comes_throw _).2 hw
    · rename_i r hr
      rw [comes_bind, comes_modify]
      have hnet : P r.net := hP w.net (.perform i o) r.net hw (Loopback.Net.undergo_perform.2 ⟨r, hr, rfl⟩)
      exact ((guards_notes _).bind fun _ => guards_pure _) _ hnet
  | external p =>
    refine guards_get fun w => ?_
    rcases b.pcb p o w.memory with ⟨r, memory⟩
    exact (guards_modify fun _ => by rfl).bind fun _ => guards_pure r

omit hP in
theorem newEngine_guards (config : Tls.Config H.Source) (name : Option Tls.ServerName) :
    Guards P (newEngine b config name) := by
  refine guards_get fun w => ?_
  rcases b.newEngine config name w.shared with ⟨r, shared⟩
  exact (guards_modify fun _ => by rfl).bind fun _ => guards_pure r

omit hP in
theorem insert_guards (layer : Layer H) : Guards P (insert b layer) :=
  guards_getSlots fun _ => (guards_modifySlots _).bind fun _ => (guards_note _).bind fun _ => guards_pure _

theorem openPcb_guards (p : PcbRef H.Pcb) : Guards P (openPcb b p) :=
  guards_getSlots fun _ => (performPcb_guards hP p _).bind fun _ => insert_guards _

omit hP in
theorem wrap_guards (inner : Handle) (layer : Layer H) : Guards P (wrap b inner layer) := by
  unfold wrap
  refine guards_lookup fun e => ?_
  split
  · exact guards_pure _
  · split
    · exact guards_pure _
    · exact (insert_guards layer).bind fun outer =>
        (guards_modifySlots _).bind fun _ => (guards_note _).bind fun _ => guards_pure _

/-! ## While a layer runs -/

section

variable {A : Answers H} (hA : ∀ r, Guards P (A r))
include hA

omit hP hA in
theorem GuardsRun.bind {x : Running H α} {f : α → Running H β} (hx : GuardsRun P x) (hf : ∀ a, GuardsRun P (f a)) :
    GuardsRun P (x >>= f) := fun flag => by
  rw [StateT.run_bind]
  exact (hx flag).bind fun r => hf r.1 r.2

omit hP hA in
theorem guardsRun_pure (a : α) : GuardsRun P (pure a : Running H α) := fun flag => guards_pure (a, flag)

omit hP hA in
theorem guardsRun_lift {m : Exec H α} (hm : Guards P m) : GuardsRun P (monadLift m : Running H α) := fun _ w hw =>
  (comes_run_lift _).2 (hm w hw)

omit hP hA in
theorem guardsRun_program {I : Interface} {f : (r : I.Req) → Running H (I.Ans r)} (hf : ∀ r, GuardsRun P (f r))
    (p : Program I α) : GuardsRun P (p.run f) := by
  induction p with
  | done a => exact guardsRun_pure a
  | ask r next ih => exact (hf r).bind ih

theorem answerLayer_guards (me : Handle) (r : Layer.Req H) : GuardsRun P (answerLayer b A me r) := by
  have hread : ∀ {γ : Type} (f : Option (Entry H) → γ),
      GuardsRun P (do pure (f (← lookup (H := H) me)) : Running H γ) := fun f =>
    (guardsRun_lift (m := lookup me) fun w hw => (comes_lookup me).2 hw).bind fun e => guardsRun_pure (f e)
  cases r with
  | inner => exact hread _
  | pollInterval => exact hread _
  | ask id o => exact guardsRun_lift (hA _)
  | cover inner l => exact guardsRun_lift (hA _)
  | emit e => exact guardsRun_lift (guards_modifySlots _)
  | release => exact fun _ => guards_pure ((), true)
  | fail reason =>
    exact (guardsRun_lift (guards_modifySlots _)).bind fun _ => fun _ => guards_pure ((), true)
  | note n => exact guardsRun_lift (guards_note n)
  | pcb p o => exact guardsRun_lift (performPcb_guards hP p o)
  | newEngine config name => exact guardsRun_lift (newEngine_guards config name)
  | shared =>
    exact fun _ _ hw => hw
  | setShared v =>
    exact fun _ _ hw => hw

theorem runMethod_guards (me : Handle) (m : Method) (layer : Layer H) : GuardsRun P (runMethod b A me m layer) := by
  cases layer with
  | plain s => exact (guardsRun_program (answerLayer_guards hP hA me) _).bind fun _ => guardsRun_pure _
  | secure s => exact (guardsRun_program (answerLayer_guards hP hA me) _).bind fun _ => guardsRun_pure _
  | passthrough name => exact (guardsRun_program (answerLayer_guards hP hA me) _).bind fun _ => guardsRun_pure _
  | custom l =>
    refine (guardsRun_program (fun r => ?_) _).bind fun _ => guardsRun_pure _
    cases r with
    | inl r => exact answerLayer_guards hP hA me r
    | inr r => exact guardsRun_lift (hA r)

theorem dealloc_guards (id : Handle) : Guards P (dealloc b A id) := by
  unfold dealloc
  refine guards_lookup fun e => ?_
  split
  · exact guards_pure _
  · exact (guards_modifySlots _).bind fun _ => (runMethod_guards hP hA id .dealloc _ false).bind fun _ =>
      guards_modifySlots _

section

variable {free : Handle → Exec H Unit} (hfree : ∀ id, Guards P (free id))
include hfree

theorem withLayer_guards (id : Handle) (m : Method) : Guards P (withLayer b A free id m) := by
  unfold withLayer
  refine guards_lookup fun e => ?_
  split
  · exact guards_pure _
  · split
    · exact guards_pure _
    · refine (guards_modifySlots _).bind fun _ => (runMethod_guards hP hA id m _ false).bind fun r =>
        (guards_modifySlots _).bind fun _ => guards_getSlots fun s => ?_
      split
      · refine Guards.bind (guards_modifySlots _) fun _ => ?_
        split
        · exact (hfree id).bind fun _ => guards_pure _
        · exact guards_pure _
      · exact (guards_note _).bind fun _ => guards_pure _

end

/-- A connection is freed, however many are below it. -/
theorem freeEntry_guards (k : Nat) : ∀ id, Guards P (freeEntry b A k id) := by
  induction k with
  | zero => exact fun _ => guards_throw _
  | succ k ih =>
    intro id
    unfold freeEntry
    refine (dealloc_guards hP hA id).bind fun _ => guards_lookup fun e => ?_
    split
    · exact guards_pure _
    · rename_i e
      refine Guards.bind (guards_modifySlots _) fun _ => ?_
      have hend : Guards P (note b (.trace "connection freed" [id.field, ("layer", e.name)])) := guards_note _
      -- the connection below goes as well
      have hdown : ∀ i, Guards P (do
          if (← getSlots).outer? i = some id then
            modifySlots fun s => (s.update i fun e => { e with outer := none }).clearCallbacks i
            let _ ← withLayer b A (freeEntry b A k) i (.op .abort)
            freeEntry b A k i
          note b (.trace "connection freed" [id.field, ("layer", e.name)])) := by
        intro i
        refine guards_getSlots fun s => ?_
        split
        · exact (guards_modifySlots _).bind fun _ => (withLayer_guards hP hA ih i _).bind fun _ =>
            (ih i).bind fun _ => hend
        · exact hend
      cases e.outer with
      | none =>
        cases e.inner with
        | none => exact hend
        | some i => exact hdown i
      | some o =>
        refine Guards.bind (guards_modifySlots _) fun _ => ?_
        cases e.inner with
        | none => exact hend
        | some i => exact hdown i

/-! ## Events -/

omit hP in
theorem callback_guards (id : Handle) (kind : CallbackKind) (call : Call) {absent : Exec H Outcome}
    (habsent : Guards P absent) : Guards P (callback b A id kind call absent) := by
  unfold callback
  refine guards_lookup fun e => ?_
  split
  · exact habsent
  · split
    · exact habsent
    · exact (guards_modifySlots _).bind fun _ => (guards_program hA _).bind fun r =>
        (guards_modifySlots _).bind fun _ => guards_pure _

section

variable {free : Handle → Exec H Unit} (hfree : ∀ id, Guards P (free id))
include hfree

theorem settleRecv_guards (source : Handle) (v : Outcome) : Guards P (settleRecv b A free source v) :=
  (withLayer_guards hP hA hfree source _).bind fun _ => guards_pure _

theorem deliverToLayer_guards (outer source : Handle) (e : Event) : Guards P (deliverToLayer b A free outer source e) := by
  unfold deliverToLayer
  refine (withLayer_guards hP hA hfree outer _).bind fun v => ?_
  dsimp only
  generalize (v.bind fun r => r : Outcome) = verdict
  split
  · exact (guards_note _).bind fun _ => hA _
  · exact settleRecv_guards hP hA hfree source _
  · exact guards_pure _

theorem deliverToApp_guards (me : Handle) (e : Event) : Guards P (deliverToApp b A free me e) := by
  have hplain : ∀ kind call (o : Outcome), Guards P (do
      let _ ← callback b A me kind call (pure o)
      pure ()) := fun kind call o => (callback_guards hA me kind call (guards_pure o)).bind fun _ => guards_pure _
  cases e with
  | accept new =>
    refine (callback_guards hA me .accept _ (guards_pure _)).bind fun v => ?_
    split
    · exact guards_pure _
    · exact (guards_note _).bind fun _ => hA _
  | recv data =>
    refine (callback_guards hA me .recv _ ?_).bind fun v => settleRecv_guards hP hA hfree me v
    exact (guards_note _).bind fun _ => (hA _).bind fun _ => guards_pure _
  | connected r => exact hplain _ _ _
  | eof => exact hplain _ _ _
  | sent len => exact hplain _ _ _
  | poll => exact hplain _ _ _
  | error reason => exact guards_pure _

theorem deliver_guards (q : Queued H) : Guards P (deliver b A free q) := by
  unfold deliver
  split
  · split
    · refine (guards_note _).bind fun _ => ?_
      split
      · exact guards_pure _
      · exact (guards_program hA _).bind fun _ => guards_pure _
    · exact guards_pure _
  · exact deliverToLayer_guards hP hA hfree _ _ _
  · refine guards_lookup fun e => ?_
    split
    · exact guards_note _
    · split
      · exact deliverToLayer_guards hP hA hfree _ _ _
      · exact deliverToApp_guards hP hA hfree _ _

theorem drain_guards (k : Nat) : Guards P (drain b A free k) := by
  induction k with
  | zero => exact guards_throw _
  | succ k ih =>
    unfold drain
    refine guards_getSlots fun s => ?_
    split
    · exact guards_pure _
    · exact (guards_modifySlots _).bind fun _ => (deliver_guards hP hA hfree _).bind fun _ => ih

theorem pump_guards (k : Nat) : Guards P (pump b A free k) := by
  unfold pump
  refine guards_getSlots fun s => ?_
  split
  · exact guards_pure _
  · exact (guards_modifySlots _).bind fun _ => (drain_guards hP hA hfree k).bind fun _ => guards_modifySlots _

/-! ## Requests -/

theorem call_guards (k : Nat) (id : Handle) (o : Op) : Guards P (call b A free k id o) := by
  unfold call
  refine (withLayer_guards hP hA hfree id _).bind fun r => (pump_guards hP hA hfree k).bind fun _ => ?_
  split <;> exact guards_pure _

theorem operate_guards (k : Nat) (id : Handle) (o : Op) : Guards P (operate b A free k id o) := by
  unfold operate
  split
  · refine guards_getSlots fun s => ?_
    split
    · refine (guards_note _).bind fun _ => (withLayer_guards hP hA hfree id _).bind fun _ => guards_getSlots fun s => ?_
      split
      · exact (guards_modifySlots _).bind fun _ => (hfree id).bind fun _ => pump_guards hP hA hfree k
      · exact pump_guards hP hA hfree k
    · exact guards_pure _
  · refine guards_getSlots fun s => ?_
    split
    · exact (guards_modifySlots _).bind fun _ => call_guards hP hA hfree k id _
    · exact guards_pure _
  · exact (guards_note _).bind fun _ => call_guards hP hA hfree k id _
  · exact call_guards hP hA hfree k id _

end

theorem dispatch_guards (id : Handle) (a : Arrival H.Pcb) : Guards P (dispatch b A id a) := by
  cases a with
  | event e => exact hA _
  | accepted p =>
    unfold dispatch
    refine guards_getSlots fun s => ?_
    split
    · refine (openPcb_guards hP p).bind fun new => (hA _).bind fun v => ?_
      split
      · exact guards_pure _
      · exact (hA _).bind fun _ => guards_pure _
    · exact (guards_note _).bind fun _ => (performPcb_guards hP p _).bind fun _ => guards_pure _

/-- **A step.** What it brings is heeded before anybody is told. -/
theorem stepNet_guards : Guards P (stepNet b A) := by
  intro w hw
  unfold stepNet
  rw [comes_bind, comes_get]
  split
  · exact (comes_pure _).2 hw
  · rename_i r hr
    have hnet : P (r.net.heed r.value.1 r.value.2) := hP w.net .step _ hw (by
      unfold Net.undergo
      rw [hr])
    obtain ⟨net, ns, i, d⟩ := r
    rw [comes_bind, comes_modify]
    refine (comes_bind _ _).2 (comes_notes _ fun m => ?_)
    dsimp only at hnet ⊢
    cases ho : (net.pcb i).owner with
    | none =>
      cases d with
      | nothing => exact (comes_pure _).2 hnet
      | reset => exact (comes_bind _ _).2 ((comes_modify _).2 ((comes_pure _).2 hnet))
      | accept new =>
        simp only [Net.heed, ho, Option.isNone_none, if_true] at hnet
        exact hnet
      | event e =>
        cases e with
        | recv data =>
          simp only [Net.heed, ho, Option.isNone_none, if_true] at hnet
          exact (comes_bind _ _).2 ((comes_modify _).2 ((comes_pure _).2 hnet))
        | _ => exact (comes_pure _).2 hnet
    | some id =>
      cases d with
      | nothing => exact (comes_pure _).2 hnet
      | reset =>
        refine (comes_bind _ _).2 ((comes_modify _).2 ?_)
        exact (guards_note _).bind (fun _ => (dispatch_guards hP hA id _).bind fun _ => guards_pure true) _ hnet
      | accept new =>
        simp only [Net.heed, ho, Option.isNone_some, Bool.false_eq_true, if_false] at hnet
        exact (dispatch_guards hP hA id _).bind (fun _ => guards_pure true) _ hnet
      | event e =>
        have hkept : P net := by
          cases e with
          | recv data => simpa [Net.heed, ho] using hnet
          | _ => exact hnet
        refine (dispatch_guards hP hA id _).bind (fun v => ?_) _ hkept
        split
        · exact guards_pure true
        · exact (guards_note _).bind fun _ => guards_pure true

omit hP in
theorem settleNet_guards (k : Nat) : ∀ done, Guards P (settleNet b A k done) := by
  induction k with
  | zero => exact fun done => (guards_note _).bind fun _ => guards_pure _
  | succ k ih =>
    intro done
    refine (hA .step).bind fun more => ?_
    split
    · exact ih _
    · exact guards_pure _

theorem answer_guards {free : Handle → Exec H Unit} (hfree : ∀ id, Guards P (free id)) (k : Nat) (r : Req H) :
    Guards P (answer b A free k r) := by
  cases r with
  | ask id o => exact operate_guards hP hA hfree k id o
  | insert layer => exact insert_guards layer
  | wrap inner layer => exact wrap_guards inner layer
  | openPcb p => exact openPcb_guards hP p
  | register id kind code =>
    refine guards_getSlots fun s => ?_
    split
    · exact (guards_modifySlots _).bind fun _ => guards_pure _
    · exact guards_pure _
  | clearCallbacks id => exact guards_modifySlots fun s => s.clearCallbacks id
  | lookup id => exact fun w hw => (comes_lookup id).2 hw
  | modifyLayer id f =>
    refine guards_lookup fun e => ?_
    split
    · exact (guards_modifySlots _).bind fun _ => guards_pure _
    · exact guards_pure _
  | slots => exact fun w hw => comes_getSlots.2 hw
  | dispatch id a => exact dispatch_guards hP hA id a
  | newPcb =>
    intro w hw
    exact hP w.net .add _ hw rfl
  | pcb p o => exact performPcb_guards hP p o
  | step => exact stepNet_guards hP hA
  | settle => exact settleNet_guards hA _ 0
  | tick =>
    intro w hw
    refine (comes_bind _ _).2 (comes_get.2 ((comes_bind _ _).2 ((comes_modify _).2 ?_)))
    refine guards_forM (fun id => ?_) _ (hP w.net .tick _ hw rfl)
    exact (dispatch_guards hP hA id _).bind fun _ => guards_pure _
  | net => exact guards_get fun _ => guards_pure _
  | split id sizes =>
    intro w hw
    exact hP w.net (.split id sizes) _ hw rfl
  | failCloses id count =>
    intro w hw
    exact hP w.net (.failCloses id count) _ hw rfl
  | newEngine config name => exact newEngine_guards config name
  | shared => exact guards_get fun _ => guards_pure _
  | setShared v => exact guards_modify fun _ => rfl
  | «recall» => exact guards_get fun _ => guards_pure _
  | remember m => exact guards_modify fun _ => rfl
  | note n => exact guards_note n

end

/-- **What each happening of a net preserves, every request does.** -/
theorem exec_guards (b : Behaviour H) (k : Nat) (r : Req H) : Guards P (exec b k r) := by
  -- by induction on how deeply requests may nest
  induction k generalizing r with
  | zero => exact guards_throw _
  | succ k ih => exact answer_guards hP ih (freeEntry_guards hP ih k) k r

omit hP in
/-- **The net below a stack takes a course**, whatever an application does with the stack, and wherever it is interrupted. -/
theorem run_takes_course (fuel : Nat) (p : Act H α) (w : World H) :
    Comes (run b fuel p) w (fun _ w' => ∃ hs, w.net.course hs = .ok w'.net) fun _ w' => ∃ hs, w.net.course hs = .ok w'.net := by
  have hlasts : Lasts fun n => ∃ hs, w.net.course hs = .ok n := by
    rintro n x n' ⟨hs, hn⟩ hx
    exact ⟨hs ++ [x], Net.course_append hn (Net.course_cons.2 ⟨n', hx, rfl⟩)⟩
  exact guards_program (exec_guards hlasts b fuel) p w ⟨[], rfl⟩

omit hP in
theorem run_course {fuel : Nat} {p : Act H α} {a : α} {w w' : World H} (h : run b fuel p w = .ok a w') :
    ∃ hs, w.net.course hs = .ok w'.net := (run_takes_course fuel p w).ends a w' h

omit hP in
/-- **The bounds of flow control below a stack.** A net that begins without endpoints keeps them. -/
theorem run_keeps_bounds {o : Options} {fuel : Nat} {p : Act H α} {a : α} {w w' : World H} (hw : w.net = { options := o })
    (h : run b fuel p w = .ok a w') : ∃ k : Booked, k.net = w'.net ∧ k.Bounded o := by
  obtain ⟨hs, hc⟩ := run_course h
  rw [hw] at hc
  obtain ⟨k, hk, hnet⟩ := Booked.run_of_course (fun _ => {}) hc
  exact ⟨k, hnet, ((Booked.kept_new o).run hk).bounded⟩

end Stack

end Conduit
