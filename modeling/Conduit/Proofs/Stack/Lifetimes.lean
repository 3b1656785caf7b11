import Conduit.Proofs.Stack.Register

/-!
# From birth to farewell

Whatever an application does in its callbacks, a callback begins while all layers are in their places; no layer is
entered twice, and none returns to find its connection gone. A layer says farewell once for each connection: when that
goes, and not before.

* `Traced.exec_neat`: the log of every request is as the observer of the connections allows.
* `Lifetimes`: births and farewells, one after the other.
* `Undisturbed`: what that says of the log.
* `Traced.run_undisturbed`: **no layer is disturbed, and each says farewell once.**
-/

namespace Conduit

open Stack Slots

variable {H : Host}

namespace Traced

variable {α β : Type} {w : World H} {id : Handle} {R : List Handle} {b : Behaviour H} {A : Answers H}
  {B : Recorded.Answers H} {free : Handle → Traced H Unit} {free' : Handle → Recorded H Unit}

/-- How requests are answered: as is known of recorded runs, and with a log as the observer allows. -/
structure Neat (A : Answers H) (B : Recorded.Answers H) : Prop extends Meek A B where
  orderly : Recorded.Orderly B
  top : ∀ r w, w.stack.Idle → Tidy (A r) w

theorem Neat.known (hA : Neat A B) (r : Req H) (hi : w.stack.Idle) :
    Exec.Ends (A r).erase w fun _ w' => ∃ t, Recorded.Carried [] w.stack t w'.stack :=
  (hA.erases r).known rfl (hA.orderly.top r w hi)

/-- Whatever an application does. -/
theorem program_tidy (hA : Neat A B) (p : Act H α) (hi : w.stack.Idle) : Tidy (p.run A) w := by
  induction p generalizing w with
  | done a => exact .pure a
  | ask r next ih =>
    refine .bind (hA.top r w hi) (hA.known r hi) ?_
    rintro x w' ⟨t, h⟩
    exact ih x h.idle

/-! ## Events -/

section

variable (hA : Neat A B) (hfree : Undoes free free')
include hA

/-- A callback begins while no layer runs. -/
theorem during_tidy (call : Call) (p : Act H α) {f : α → Traced H β} (hs : w.stack.Sound [])
    (hp : w.stack.pumping = true) (hf : ∀ a w', Tidy (f a) w') :
    Tidy (do
      mark [.called call (← lift getSlots)]
      let a ← p.run A
      mark [.returned]
      f a) w := by
  refine Leads.bind (.lift (ends_getSlots.2 (.bind (.mark (.single (.called call hs.whole _)) (.bind ?_)))))
  refine (program_tidy hA p (Recorded.idle_of_pumping hs hp)).mono ?_
  rintro a c w' rfl
  exact Tidy.then (.mark (by simp [Incident.isTraffic])) fun _ w'' => hf a w''

theorem callback_tidy (me : Handle) (kind : CallbackKind) (call : Call) {absent : Traced H Outcome}
    (hs : w.stack.Sound []) (hp : w.stack.pumping = true) (habsent : Tidy absent w) :
    Tidy (callback b A me kind call absent) w := by
  refine .lift_bind ((ends_lookup me).2 ⟨fun _ => rfl, ?_⟩)
  cases hf : w.stack.find? me with
  | none => exact habsent
  | some e =>
    cases hc : e.callbacks.get kind with
    | none =>
      simp only [hc]
      exact habsent
    | some code =>
      simp only [hc]
      have hs₁ : (w.stack.takeCallback me kind).Sound [] := hs.update (fun _ => rfl) (fun _ => rfl) fun _ => rfl
      refine .lift_bind ((ends_modifySlots _).2 ⟨fun x => isAlive_update, ?_⟩)
      refine during_tidy hA call _ hs₁ hp fun r w' => .lift_bind ((ends_modifySlots _).2 ⟨fun x => ?_, .pure _⟩)
      exact isAlive_update

theorem callback_known (me : Handle) (kind : CallbackKind) (call : Call) {absent : Traced H Outcome}
    (absent' : Recorded H Outcome) {absent₀ : Exec H Outcome} (hs : w.stack.Sound []) (hp : w.stack.pumping = true)
    (herases : Erases absent absent₀) (hforget : absent'.forget = absent₀)
    (habsent : Recorded.Ends absent' w fun _ t w' => Recorded.Moved w.stack t w'.stack) :
    Exec.Ends (callback b A me kind call absent).erase w fun _ w' => ∃ t, Recorded.Moved w.stack t w'.stack :=
  (callback_erases hA.erases me kind call herases).known
    ((Recorded.forget_callback B me kind call absent').trans (by rw [hforget]; rfl))
    (Recorded.callback_ends hA.orderly me kind call hs hp habsent)

variable [IsEmpty H.Layer]
include hfree

theorem settleRecv_tidy (source : Handle) (v : Outcome) (hs : w.stack.Sound []) :
    Tidy (settleRecv b A free source v) w :=
  .then (withLayer_tidy hA.toMeek hfree (by simp) (fun _ => rfl) hs (clear_nil _ _)) fun _ _ => .pure _

theorem deliverToLayer_tidy (outer source : Handle) (e : Event) (hs : w.stack.Sound [])
    (hp : w.stack.pumping = true) : Tidy (deliverToLayer b A free outer source e) w := by
  refine .bind (withLayer_tidy hA.toMeek hfree (by simp) (fun _ => rfl) hs (clear_nil _ _))
    (withLayer_known hA.toMeek hfree (by simp) (fun _ => rfl) hs (clear_nil _ _)) ?_
  rintro v w' ⟨t, h⟩
  -- whatever the layer above answers
  generalize (v.bind fun r => r : Outcome) = verdict
  dsimp only
  split
  · refine .lift_bind ((ends_note _).2 ⟨fun _ => rfl, hA.top _ _ ?_⟩)
    exact Recorded.idle_of_pumping h.sound (h.pumping.trans hp)
  · exact settleRecv_tidy hA hfree source _ h.sound
  · exact .pure _

theorem deliverToApp_tidy (me : Handle) (e : Event) (hs : w.stack.Sound []) (hp : w.stack.pumping = true) :
    Tidy (deliverToApp b A free me e) w := by
  have hcall : ∀ (kind : CallbackKind) (call : Call) (v : Outcome),
      Tidy (do let _ ← callback b A me kind call (pure v)) w :=
    fun kind call v => .then (callback_tidy hA me kind call hs hp (.pure v)) fun _ _ => .pure _
  cases e with
  | accept new =>
    refine .bind (callback_tidy hA me _ _ hs hp (.pure _)) (callback_known hA me _ _ (pure _) hs hp (.pure _)
      (Recorded.forget_pure _) ((Recorded.ends_pure _).2 (.refl hs))) ?_
    rintro v w' ⟨t, h⟩
    cases v with
    | ok _ => exact .pure _
    | error f =>
      refine .lift_bind ((ends_note _).2 ⟨fun _ => rfl, hA.top _ _ ?_⟩)
      exact Recorded.idle_of_pumping h.sound (h.pumping.trans hp)
  | connected r => exact hcall _ _ _
  | recv data =>
    -- where no callback is registered, the data is acknowledged
    have hidle := Recorded.idle_of_pumping hs hp
    let absent' : Recorded H Outcome := do
      Recorded.lift (note b (.trace "no recv callback, acknowledging and dropping"
        [me.field, ("len", toString data.length)]))
      B (.ask me (.recved data.length))
      pure (.ok ())
    refine .bind (callback_tidy hA me _ _ hs hp ?_) (callback_known hA me _ _ absent' hs hp
      (.bind (.lift _) fun _ => .bind (hA.erases _) fun _ => .pure _) ?_ ?_) ?_
    · exact .lift_bind ((ends_note _).2 ⟨fun _ => rfl, .then (hA.top _ _ hidle) fun _ _ => .pure _⟩)
    · simp only [absent', Recorded.forget_bind, Recorded.forget_lift, Recorded.forget_pure]
    · refine (Recorded.ends_bind _ _).2 ?_
      rw [Recorded.ends_lift, ends_note]
      refine (Recorded.ends_bind _ _).2 ((hA.orderly.top _ _ ?_).mono fun _ t w' h => ?_)
      · exact hidle
      · rw [Recorded.ends_pure, List.append_nil]
        exact h.moved
    · rintro v w' ⟨t, h⟩
      exact settleRecv_tidy hA hfree me v h.sound
  | eof => exact hcall _ _ _
  | sent len => exact hcall _ _ _
  | poll => exact hcall _ _ _
  | error f => exact .pure _

theorem deliver_tidy (q : Queued H) (hs : w.stack.Sound []) (hp : w.stack.pumping = true) :
    Tidy (deliver b A free q) w := by
  obtain ⟨source, event, route⟩ := q
  cases route with
  | sink code =>
    cases event with
    | error reason =>
      refine .lift_bind ((ends_note _).2 ⟨fun _ => rfl, ?_⟩)
      cases code with
      | none => exact .pure _
      | some code =>
        refine during_tidy hA (.err reason) (b.callback code (.err reason)) ?_ ?_ fun _ _ => .pure ()
        · exact hs
        · exact hp
    | _ => exact .pure _
  | layer outer => exact deliverToLayer_tidy hA hfree outer source event hs hp
  | resolve =>
    refine .lift_bind ((ends_lookup source).2 ⟨fun _ => rfl, ?_⟩)
    cases hf : w.stack.find? source with
    | none => exact .lift ((ends_note _).2 fun _ => rfl)
    | some e =>
      cases ho : e.outer with
      | none =>
        simp only [ho]
        exact deliverToApp_tidy hA hfree source event hs hp
      | some outer =>
        simp only [ho]
        exact deliverToLayer_tidy hA hfree outer source event hs hp

/-- One delivery after the other. The induction is on how many there may be. -/
theorem drain_tidy (n : Nat) (hs : w.stack.Sound []) (hp : w.stack.pumping = true) : Tidy (drain b A free n) w := by
  induction n generalizing w with
  | zero => exact .lift (Exec.ends_throw _)
  | succ n ih =>
    refine .lift_bind (ends_getSlots.2 ⟨fun _ => rfl, ?_⟩)
    cases hq : w.stack.queue with
    | nil => exact .pure _
    | cons q rest =>
      refine .mark_bind (by simp [Incident.isTraffic]) (.lift_bind ((ends_modifySlots _).2 ⟨fun _ => rfl, ?_⟩))
      have hs₁ : ({ w.stack with queue := rest } : Slots H).Sound [] := hs.of_same rfl rfl rfl rfl
      have hout : w.stack.outstanding = q.owed.toList ++ ({ w.stack with queue := rest } : Slots H).outstanding := by
        unfold outstanding
        rw [hq]
        cases ho : q.owed <;> simp [ho]
      have hends := Recorded.deliver_ends (b := b) (w := { w with stack := { w.stack with queue := rest } })
        (s := w.stack) hA.orderly hfree.frees hs₁ hp (fun _ => rfl) rfl hout
      refine .bind (deliver_tidy hA hfree q hs₁ hp) ((deliver_erases hA.erases hfree.erases q).known
        (Recorded.forget_deliver B free' q) hends) ?_
      rintro _ w' ⟨t, h⟩
      exact .mark_bind (by simp [Incident.isTraffic]) (ih h.sound (h.pumping.trans hp))

/-- The pump works while no layer runs. -/
theorem pump_tidy (n : Nat) (hs : w.stack.Sound R) : Tidy (pump b A free n) w := by
  refine .lift_bind (ends_getSlots.2 ⟨fun _ => rfl, ?_⟩)
  split
  · exact .pure _
  · rename_i hbusy
    rw [Bool.or_eq_true, not_or, decide_eq_true_eq, hs.depth] at hbusy
    obtain rfl : R = [] := List.length_eq_zero_iff.1 (Nat.eq_zero_of_not_pos hbusy.1)
    refine .mark_bind (by simp [Incident.isTraffic]) (.lift_bind ((ends_modifySlots _).2 ⟨fun _ => rfl, ?_⟩))
    refine .then (drain_tidy hA hfree n ?_ rfl) fun _ w' => .lift_bind ((ends_modifySlots _).2 ⟨fun _ => rfl, ?_⟩)
    · exact hs.of_same rfl rfl rfl rfl
    · exact .mark (by simp [Incident.isTraffic])

/-! ## Requests -/

theorem call_tidy (n : Nat) (o : Op) (hlow : R ≠ [] → (Method.op o).isLower = false) (hs : w.stack.Sound R)
    (hc : w.stack.Clear R id) : Tidy (call b A free n id o) w := by
  have htop : (Method.op o).isLower = true → R = [] := by
    intro ho
    by_contra hR
    rw [hlow hR] at ho
    cases ho
  refine .bind (withLayer_tidy hA.toMeek hfree (by simp) htop hs hc)
    (withLayer_known hA.toMeek hfree (by simp) htop hs hc) ?_
  rintro r w' ⟨t, h⟩
  refine .then (pump_tidy hA hfree n h.sound) fun _ w'' => ?_
  cases r with
  | ok r => exact .pure _
  | error f => exact .pure _

/-- A connection is aborted, and comes to its end. -/
theorem abort_tidy (n : Nat) (hs : w.stack.Sound R) (hc : w.stack.Clear R id)
    (hup : R ≠ [] → ∀ e, w.stack.find? id = some e → e.outer ≠ none) : Tidy (operate b A free n id .abort) w := by
  refine .lift_bind (ends_getSlots.2 ⟨fun _ => rfl, ?_⟩)
  split
  · refine .lift_bind ((ends_note _).2 ⟨fun _ => rfl, ?_⟩)
    have hlow : (Method.op .abort).isLower = true → R = [] := fun hf => absurd hf Bool.false_ne_true
    refine .bind (withLayer_tidy hA.toMeek hfree (by simp) hlow hs hc)
      (withLayer_known hA.toMeek hfree (by simp) hlow hs hc) ?_
    rintro _ w₁ ⟨t, h⟩
    refine .lift_bind (ends_getSlots.2 ⟨fun _ => rfl, ?_⟩)
    split
    · rename_i ha
      -- its layer has given up, but left the connection there; now it comes to its end
      have hwaits : Exec.Ends (enqueue (H := H) id (.error .aborted)).erase w₁ fun _ w' =>
          w'.stack = w₁.stack.enqueue id (.error .aborted) := by
        rw [enqueue_erases]
        exact (ends_modifySlots _).2 rfl
      refine .bind (enqueue_tidy id _) hwaits fun _ w₂ hw₂ => ?_
      have hs₂ : w₂.stack.Sound R := hw₂ ▸ h.sound.enqueue id _
      have hc₂ : w₂.stack.Clear R id := hw₂ ▸ Recorded.clear_ended hs hc (h.shrinks rfl) h.sound ha hup
      have ha₂ : w₂.stack.isAlive id = true := by
        rw [hw₂, isAlive_enqueue]
        exact ha
      refine .bind (hfree.tidy R id w₂ hs₂ hc₂ ha₂) ((hfree.erases id).known rfl (hfree.frees R id w₂ hs₂ hc₂ ha₂)) ?_
      rintro _ w₃ ⟨u, hfreed⟩
      exact pump_tidy hA hfree n hfreed.sound
    · exact pump_tidy hA hfree n h.sound
  · exact .pure _

/-- **An operation on a connection**, while the layers of `R` run, or none. -/
theorem operate_tidy (n : Nat) (o : Op) (hlow : R ≠ [] → (Method.op o).isLower = false) (hs : w.stack.Sound R)
    (hc : w.stack.Clear R id) (hup : R ≠ [] → ∀ e, w.stack.find? id = some e → e.outer ≠ none) :
    Tidy (operate b A free n id o) w := by
  cases o with
  | abort => exact abort_tidy hA hfree n hs hc hup
  | setPoll interval =>
    refine .lift_bind (ends_getSlots.2 ⟨fun _ => rfl, ?_⟩)
    split
    · have hs₁ : (w.stack.update id fun e => { e with pollInterval := interval }).Sound R :=
        hs.update (fun _ => rfl) (fun _ => rfl) fun _ => rfl
      have hsh₁ : w.stack.Shrinks (w.stack.update id fun e => { e with pollInterval := interval }) :=
        .of_update (fun _ => rfl) fun _ => rfl
      refine .lift_bind ((ends_modifySlots _).2 ⟨fun x => isAlive_update, ?_⟩)
      exact call_tidy hA hfree n _ (fun _ => rfl) hs₁ (hc.shrinks hsh₁ hs.toLinked hs₁.toLinked)
    · exact .pure _
  | lower e => exact .lift_bind ((ends_note _).2 ⟨fun _ => rfl, call_tidy hA hfree n _ hlow hs hc⟩)
  | _ => exact call_tidy hA hfree n _ hlow hs hc

end

section

variable (hA : Neat A B)
include hA

theorem dispatch_known (id : Handle) (a : Arrival H.Pcb) (hi : w.stack.Idle) :
    Exec.Ends (dispatch b A id a).erase w fun _ w' => ∃ t, Recorded.Carried [] w.stack t w'.stack :=
  (dispatch_erases hA.erases id a).known (Recorded.forget_dispatch B id a) (Recorded.dispatch_ends hA.orderly id a hi)

theorem dispatch_tidy (id : Handle) (a : Arrival H.Pcb) (hi : w.stack.Idle) : Tidy (dispatch b A id a) w := by
  cases a with
  | event e => exact hA.top _ w hi
  | accepted p =>
    refine .lift_bind (ends_getSlots.2 ⟨fun _ => rfl, ?_⟩)
    split
    · -- a connection has come, of which its listener learns
      refine .bind (openPcb_tidy hi.sound p) ((openPcb_erases p).known (Recorded.forget_openPcb p)
        (Recorded.openPcb_ends hi.sound p)) ?_
      rintro new w₁ ⟨t, h⟩
      have hi₁ := (h.carried hi).idle
      refine .bind (hA.top _ w₁ hi₁) (hA.known _ hi₁) ?_
      rintro v w₂ ⟨u, h₂⟩
      cases v with
      | ok _ => exact .pure _
      | error f => exact .then (hA.top _ w₂ h₂.idle) fun _ _ => .pure _
    · refine .lift_bind ((ends_note _).2 ⟨fun _ => rfl, .lift_bind ((Recorded.ends_performPcb p _).mono ?_)⟩)
      intro _ w' hw
      rw [hw]
      exact ⟨fun _ => rfl, .pure _⟩

theorem stepNet_tidy (hi : w.stack.Idle) : Tidy (stepNet b A) w := by
  refine .lift_bind (Exec.ends_get.2 ⟨fun _ => rfl, ?_⟩)
  cases w.net.next with
  | none => exact .pure _
  | some r =>
    refine .lift_bind ((Exec.ends_modify _).2 ⟨fun _ => rfl, .lift_bind (ends_notes _ fun m => ⟨fun _ => rfl, ?_⟩)⟩)
    rcases r.value with ⟨i, delivery⟩
    dsimp only
    generalize (r.net.pcb i).owner = owner
    -- what a report leads to, the slots being as before
    have hdispatch : ∀ (w' : World H) (id : Handle) (a : Arrival H.Pcb) {f : Outcome → Traced H Bool},
        w'.stack = w.stack → (∀ v w'', Tidy (f v) w'') → Tidy (dispatch b A id a >>= f) w' :=
      fun w' id a _ hw hf => .then (dispatch_tidy hA id a (hw ▸ hi)) hf
    cases delivery with
    | nothing => exact .pure _
    | accept new =>
      cases owner with
      | none =>
        refine .lift_bind ((Recorded.ends_performPcb _ _).mono fun _ w' hw => ⟨fun _ => ?_, .pure _⟩)
        rw [hw]
      | some listener => exact hdispatch _ _ _ rfl fun _ _ => .pure _
    | reset =>
      refine .lift_bind ((Exec.ends_modify _).2 ⟨fun _ => rfl, ?_⟩)
      cases owner with
      | none => exact .pure _
      | some id =>
        exact .lift_bind ((ends_note _).2 ⟨fun _ => rfl, hdispatch _ _ _ rfl fun _ _ => .pure _⟩)
    | event e =>
      cases owner with
      | none =>
        cases e with
        | recv data => exact .lift_bind ((Exec.ends_modify _).2 ⟨fun _ => rfl, .pure _⟩)
        | _ => exact .pure _
      | some id =>
        refine hdispatch _ _ _ rfl fun v w'' => ?_
        cases v with
        | ok u => exact .pure _
        | error f => exact .lift_bind ((ends_note _).2 ⟨fun _ => rfl, .pure _⟩)

theorem settleNet_tidy (n done : Nat) (hi : w.stack.Idle) : Tidy (settleNet b A n done) w := by
  induction n generalizing done w with
  | zero => exact .lift_bind ((ends_note _).2 ⟨fun _ => rfl, .pure _⟩)
  | succ n ih =>
    refine .bind (hA.top .step w hi) (hA.known .step hi) ?_
    rintro x w' ⟨t, h⟩
    cases x with
    | true => exact ih (done + 1) h.idle
    | false => exact .pure _

theorem polls_tidy (due : List Handle) (hi : w.stack.Idle) :
    Tidy (due.forM fun id => do let _ ← dispatch b A id (.event .poll)) w := by
  induction due generalizing w with
  | nil => exact .pure _
  | cons id due ih =>
    refine Leads.bind (Leads.bind (((dispatch_tidy hA id _ hi).and (dispatch_known hA id _ hi)).mono ?_))
    rintro v c w' ⟨rfl, t, h⟩
    exact Leads.pure (ih h.idle)

end

/-- **The log of every request is as the observer allows**, if those are that it leads to. -/
theorem answer_neat [IsEmpty H.Layer] (hA : Neat A B) (hfree : Undoes free free') (k : Nat) :
    Neat (answer b A free k) (Recorded.answer b B free' k) := by
  have horderly : Recorded.Orderly (Recorded.answer b B free' k) :=
    Recorded.answer_orderly hA.orderly hfree.frees k
  refine ⟨⟨fun r => ?_, horderly.toModest, ?_, ?_⟩, horderly, ?_⟩
  · exact (answer_erases hA.erases hfree.erases k r).trans (Recorded.forget_answer B free' r).symm
  · intro R id o w _ hs hc hup hlow
    exact operate_tidy hA hfree k o (fun _ => hlow) hs hc fun _ => hup
  · intro R inner l w hs
    exact wrap_tidy hs inner (.secure l)
  · intro r w hi
    have hnil : ∀ {P : Prop}, ([] : List Handle) ≠ [] → P := fun hR => absurd rfl hR
    cases r with
    | ask id o => exact operate_tidy hA hfree k o hnil hi.sound (clear_nil _ _) hnil
    | insert layer => exact insert_tidy hi.sound layer
    | wrap inner layer => exact wrap_tidy hi.sound inner layer
    | openPcb p => exact openPcb_tidy hi.sound p
    | dispatch id a => exact dispatch_tidy hA id a hi
    | step => exact stepNet_tidy hA hi
    | settle => exact settleNet_tidy hA _ _ hi
    | tick =>
      refine .lift_bind (Exec.ends_get.2 ⟨fun _ => rfl, .lift_bind ((Exec.ends_modify _).2 ⟨fun _ => rfl, ?_⟩)⟩)
      exact polls_tidy hA _ hi
    | pcb p o =>
      refine .lift ((Recorded.ends_performPcb p o).mono fun _ w' hw x => ?_)
      rw [hw]
    | register id kind code =>
      refine .lift ?_
      unfold Stack.answer
      simp only [Exec.ends_bind, ends_getSlots]
      split
      · simp only [Exec.ends_bind, ends_modifySlots, Exec.ends_pure]
        exact fun x => isAlive_update
      · exact (Exec.ends_pure _).2 fun _ => rfl
    | clearCallbacks id =>
      refine .lift ?_
      unfold Stack.answer
      exact (ends_modifySlots _).2 fun x => isAlive_update
    | modifyLayer id f =>
      refine .lift ?_
      unfold Stack.answer
      simp only [Exec.ends_bind, ends_lookup]
      split
      · rename_i l hl
        -- there is no layer of the application's own
        exact isEmptyElim l
      · exact (Exec.ends_pure _).2 fun _ => rfl
    | _ =>
      refine .lift fun a w' h => ?_
      cases h
      exact fun _ => rfl

/-- **The log of every request is as the observer allows.** -/
theorem exec_neat [IsEmpty H.Layer] (k : Nat) : Neat (exec b k) (Recorded.exec b k) := by
  induction k with
  | zero =>
    have hthrow : ∀ r (w : World H), Tidy (exec b 0 r) w := fun r w => .lift (Exec.ends_throw _)
    refine ⟨⟨fun r => ?_, (Recorded.exec_orderly 0).toModest, fun R id o w _ _ _ _ _ => hthrow _ w,
      fun R inner l w _ => hthrow _ w⟩, Recorded.exec_orderly 0, fun r w _ => hthrow r w⟩
    exact (exec_erases 0 r).trans (congrFun (Recorded.forget_exec 0) r).symm
  | succ k ih => exact answer_neat ih (freeEntry_undoes ih.toMeek k) k

end Traced

/-! ## What is seen of it -/

/-- Whether an incident is of the life of a connection. -/
def Incident.concerns (id : Handle) : Incident H → Bool
  | .born x | .farewell x | .freed x => x = id
  | _ => false

theorem Incident.concerns_of_isTraffic {i : Incident H} {id : Handle} (h : i.isTraffic = true) :
    i.concerns id = false := by
  cases i with
  | queued | began | taken | delivered | ceased | returned => rfl
  | _ => cases h

/-- The connections that a handle names, one after the other, from whether it names one at first to whether it does in
the end. Each of them is born once; and when it goes, its layer has said farewell, once, just before. -/
inductive Lifetimes (id : Handle) : Bool → List (Incident H) → Bool → Prop
  | same (now : Bool) : Lifetimes id now [] now
  | born {l : List (Incident H)} {later : Bool} (h : Lifetimes id true l later) :
    Lifetimes id false (.born id :: l) later
  | freed {l : List (Incident H)} {later : Bool} (h : Lifetimes id false l later) :
    Lifetimes id true (.farewell id :: .freed id :: l) later

/-- What holds of a log, where `alive` are the connections at first. -/
structure Undisturbed (alive : Handle → Bool) (t : List (Incident H)) : Prop where
  /-- A callback begins while no layer is away. -/
  called : ∀ call s, .called call s ∈ t → s.Whole
  /-- No layer is called for while it runs. -/
  entered : ∀ id, .reentered id ∉ t
  /-- None returns to find its connection gone. -/
  returned : ∀ id, .vanished id ∉ t
  /-- If a layer says farewell, its connection goes next. -/
  farewell : ∀ u id v, t = u ++ .farewell id :: v → v = [] ∨ ∃ v', v = .freed id :: v'
  /-- Of each handle, births and farewells take turns; the run may have been interrupted in the midst of a farewell. -/
  lifetimes : ∀ id, ∃ rest later, Lifetimes id (alive id) (t.filter (·.concerns id) ++ rest) later

namespace Register

/-- The farewell that a connection that is about to go has said already. -/
def said (c : Register) (id : Handle) : List (Incident H) := if c.leaving = some id then [.farewell id] else []

end Register

namespace Traced

variable {c c' : Register} {t : List (Incident H)}

theorem Step.harmless {i : Incident H} (h : Register.Step c i c') :
    (∀ call s, i = .called call s → s.Whole) ∧ (∀ id, i ≠ .reentered id) ∧ ∀ id, i ≠ .vanished id := by
  cases h with
  | traffic h a => cases i <;> simp_all [Incident.isTraffic]
  | called call h a =>
    refine ⟨fun call' s' heq => ?_, by simp, by simp⟩
    cases heq
    exact h
  | _ => simp

theorem Passes.harmless (h : Passes Register.Step c t c') : ∀ i ∈ t,
    (∀ call s, i = .called call s → s.Whole) ∧ (∀ id, i ≠ .reentered id) ∧ ∀ id, i ≠ .vanished id := by
  induction h with
  | nil c => simp
  | cons hi _ ih => exact List.forall_mem_cons.2 ⟨Step.harmless hi, ih⟩

/-- Whose layer has said farewell, goes. -/
theorem Passes.farewell {u v : List (Incident H)} {id : Handle}
    (h : Passes Register.Step c (u ++ .farewell id :: v) c') : v = [] ∨ ∃ v', v = .freed id :: v' := by
  obtain ⟨c₁, -, hrest⟩ := h.split
  cases hrest with
  | cons hi hv =>
    cases hi with
    | traffic h _ => cases h
    | farewell _ =>
      cases hv with
      | nil _ => exact .inl rfl
      | cons hj _ =>
        cases hj with
        | freed _ => exact .inr ⟨_, rfl⟩

/-- Only who is there is about to go. -/
theorem Step.leaves {i : Incident H} {id : Handle} (h : Register.Step c i c')
    (hc : c.leaving = some id → c.alive id = true) (hl : c'.leaving = some id) : c'.alive id = true := by
  cases h with
  | farewell h =>
    cases hl
    exact h
  | traffic | called => exact hc hl
  | born | freed => cases hl

/-- One incident more at the front of a log. -/
theorem Step.lifetimes {i : Incident H} {id : Handle} (h : Register.Step c i c') {rest : List (Incident H)}
    {later : Bool} (hl : Lifetimes id (c'.alive id) (c'.said id ++ rest) later) :
    Lifetimes id (c.alive id) (c.said id ++ ([i].filter (·.concerns id) ++ rest)) later := by
  cases h with
  | traffic h a => rwa [List.filter_singleton, Incident.concerns_of_isTraffic h]
  | called call h a => exact hl
  | @born x a h =>
    by_cases hx : x = id
    · subst hx
      simp only [h, Bool.false_or, decide_true] at hl ⊢
      simpa [Register.said, Incident.concerns] using Lifetimes.born hl
    · simpa [Register.said, Incident.concerns, hx, Ne.symm hx] using hl
  | @farewell x a h =>
    by_cases hx : x = id
    · subst hx
      simpa [Register.said, Incident.concerns] using hl
    · simpa [Register.said, Incident.concerns, hx] using hl
  | @freed x a h =>
    by_cases hx : x = id
    · subst hx
      simp only [h, ne_eq, not_true_eq_false, decide_false, Bool.and_false] at hl ⊢
      simpa [Register.said, Incident.concerns] using Lifetimes.freed hl
    · simpa [Register.said, Incident.concerns, hx, Ne.symm hx] using hl

/-- The induction is on the log; whoever is about to go at first has said farewell before it. -/
theorem Passes.lifetimes (h : Passes Register.Step c t c') (id : Handle)
    (hc : c.leaving = some id → c.alive id = true) : ∃ rest later,
      Lifetimes id (c.alive id) (c.said id ++ t.filter (·.concerns id) ++ rest) later ∧
        (c'.leaving = none → rest = [] ∧ later = c'.alive id) := by
  induction h with
  | nil c =>
    by_cases hl : c.leaving = some id
    · -- interrupted in the midst of a farewell
      refine ⟨[.freed id], false, ?_, fun hn => ?_⟩
      · rw [hc hl]
        simpa [Register.said, hl] using Lifetimes.freed (H := H) (.same false)
      · rw [hn] at hl
        cases hl
    · refine ⟨[], c.alive id, ?_, fun _ => ⟨rfl, rfl⟩⟩
      simpa [Register.said, hl] using Lifetimes.same (H := H) (c.alive id)
  | @cons c c' c'' i t hi _ ih =>
    obtain ⟨rest, later, hlife, hend⟩ := ih (Step.leaves hi hc)
    refine ⟨rest, later, ?_, hend⟩
    rw [List.append_assoc] at hlife ⊢
    rw [← List.singleton_append, List.filter_append, List.append_assoc]
    exact Step.lifetimes hi hlife

/-- **No layer is disturbed, and each says farewell once**: whatever the application does in its callbacks, over layers
that are not its own. When a run has ended, all layers are in their places, and every connection that was there has
gone with one farewell, or is there still and its layer has said none. -/
theorem run_undisturbed [IsEmpty H.Layer] {α : Type} (b : Behaviour H) (fuel : Nat) (p : Act H α) {w : World H}
    (hi : w.stack.Idle) :
    (run b fuel p).erase = Stack.run b fuel p ∧ Undisturbed w.stack.isAlive ((run b fuel p).log w) ∧
      Exec.Ends (Stack.run b fuel p) w fun _ w' => w'.stack.Whole ∧ ∀ id,
        Lifetimes id (w.stack.isAlive id) (((run b fuel p).log w).filter (·.concerns id)) (w'.stack.isAlive id) := by
  have herase := run_erases b fuel p
  have hneat : Neat (exec b fuel) (Recorded.exec b fuel) := exec_neat fuel
  obtain ⟨c, hlog, hend⟩ := program_tidy hneat p hi
  change Passes Register.Step (.of w.stack) ((run b fuel p).log w) c at hlog
  have hlives := fun id => hlog.lifetimes id (fun hl => by cases hl)
  refine ⟨herase, ⟨?_, ?_, ?_, ?_, ?_⟩, ?_⟩
  · exact fun call s hm => (hlog.harmless _ hm).1 call s rfl
  · exact fun id hm => (hlog.harmless _ hm).2.1 id rfl
  · exact fun id hm => (hlog.harmless _ hm).2.2 id rfl
  · intro u id v huv
    rw [huv] at hlog
    exact hlog.farewell
  · intro id
    obtain ⟨rest, later, hlife, -⟩ := hlives id
    exact ⟨rest, later, hlife⟩
  · rw [← herase]
    intro a w' hrun
    obtain rfl : c = .of w'.stack := hend a w' hrun
    refine ⟨?_, fun id => ?_⟩
    · rw [herase] at hrun
      obtain ⟨t, ht⟩ := Recorded.exists_record (Recorded.forget_run fuel p) hrun
      exact (Recorded.run_ends fuel p hi (a, t) w' ht).sound.whole
    · obtain ⟨rest, later, hlife, hlast⟩ := hlives id
      obtain ⟨rfl, rfl⟩ := hlast rfl
      simpa [Register.said, Register.of] using hlife

/-- In its callback, an application aborts another connection, which goes with a farewell; a third one stays. -/
theorem run_undisturbed_meddle : ({} : Slots meddler).Idle ∧
    ∃ w', Stack.run meddling 20 meddle { shared := (), memory := () } = .ok () w' ∧ w'.stack.Whole ∧
      Undisturbed ({} : Slots meddler).isAlive ((run meddling 20 meddle).log { shared := (), memory := () }) ∧
      (((run meddling 20 meddle).log { shared := (), memory := () }).any fun
        | .called _ _ => true
        | _ => false) ∧
      (((run meddling 20 meddle).log { shared := (), memory := () }).filter (·.concerns ⟨2, 0⟩)).length = 3 ∧
      Lifetimes ⟨2, 0⟩ false (((run meddling 20 meddle).log { shared := (), memory := () }).filter
        (·.concerns ⟨2, 0⟩)) false ∧
      Lifetimes ⟨3, 0⟩ false (((run meddling 20 meddle).log { shared := (), memory := () }).filter
        (·.concerns ⟨3, 0⟩)) true := by
  have hidle : ({} : Slots meddler).Idle := idle_empty
  have hreaches : Exec.reaches (Stack.run meddling 20 meddle) { shared := (), memory := () } (fun _ w =>
      !w.stack.isAlive ⟨2, 0⟩ && w.stack.isAlive ⟨3, 0⟩) = true := by decide +kernel
  obtain ⟨_, w', hrun, hlast⟩ := Exec.exists_of_reaches hreaches
  rw [Bool.and_eq_true, Bool.not_eq_true'] at hlast
  obtain ⟨-, hundisturbed, hend⟩ := run_undisturbed meddling 20 meddle (w := { shared := (), memory := () }) hidle
  obtain ⟨hwhole, hlives⟩ := hend () w' hrun
  have hsecond := hlives ⟨2, 0⟩
  have hthird := hlives ⟨3, 0⟩
  rw [hlast.1] at hsecond
  rw [hlast.2] at hthird
  refine ⟨hidle, w', hrun, hwhole, hundisturbed, ?_, ?_, hsecond, hthird⟩
  · decide +kernel
  · decide +kernel

end Traced

end Conduit
