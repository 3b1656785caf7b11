import Conduit.Proofs.Stack.Chains

/-!
# Runs that are interrupted

A run that is interrupted leaves the world as it stands at that moment, in the middle of the callbacks and layers that
are at work. As far as events go it is a world like one that a run leaves in the end: whoever is asked there finds none
that it would have to deliver.

* `Exec.Rests`: how runs end, and that those which are interrupted leave no event to be delivered.
* `Stack.Level`, `Stack.Resting`: what is at work is the same afterwards.
* `Stack.exec_settles`: so it is with every request, made between requests or inside callbacks and layers.
-/

namespace Conduit

variable {H : Host} {α β : Type}

/-! ## Runs that may be interrupted -/

namespace Exec

/-- A run of `x` from `w` that ends, ends as `post` says; one that is interrupted, other than for its length, leaves no
event to be delivered. -/
def Rests (x : Exec H α) (w : World H) (post : α → World H → Prop) : Prop :=
  match x w with
  | .ok a w' => post a w'
  | .error e w' => e ≠ .outOfFuel → w'.stack.Quiet

variable {w : World H} {post post' : α → World H → Prop}

theorem Rests.mono {x : Exec H α} (h : Rests x w post) (hp : ∀ a w', post a w' → post' a w') : Rests x w post' := by
  unfold Rests at h ⊢
  split
  · rename_i a w' hx
    rw [hx] at h
    exact hp a w' h
  · rename_i e w' hx
    rw [hx] at h
    exact h

@[simp] theorem rests_pure (a : α) : Rests (pure a : Exec H α) w post ↔ post a w := Iff.rfl

@[simp] theorem rests_bind (x : Exec H α) (f : α → Exec H β) {post : β → World H → Prop} :
    Rests (x >>= f) w post ↔ Rests x w fun a w' => Rests (f a) w' post := by
  show (match EStateM.bind x f w with | .ok a w' => _ | .error e w' => _) ↔ _
  unfold EStateM.bind Rests
  cases x w with
  | ok a w' => rfl
  | error e w' => rfl

theorem Rests.step {mid : α → World H → Prop} {x : Exec H α} {f : α → Exec H β} {post : β → World H → Prop}
    (hx : Rests x w mid) (hf : ∀ a w', mid a w' → Rests (f a) w' post) : Rests (x >>= f) w post :=
  (rests_bind x f).2 (hx.mono hf)

@[simp] theorem rests_get {post : World H → World H → Prop} : Rests (get : Exec H (World H)) w post ↔ post w w := Iff.rfl

@[simp] theorem rests_modify (f : World H → World H) {post : PUnit → World H → Prop} :
    Rests (modify f : Exec H PUnit) w post ↔ post ⟨⟩ (f w) := Iff.rfl

theorem rests_outOfFuel : Rests (throw .outOfFuel : Exec H α) w post := fun h => absurd rfl h

end Exec

namespace Stack

open Exec Slots

variable {b : Behaviour H} {w : World H} {id : Handle} {flag : Bool}

@[simp] theorem rests_modifySlots (f : Slots H → Slots H) {post : Unit → World H → Prop} :
    Rests (modifySlots f) w post ↔ post () { w with stack := f w.stack } := Iff.rfl

@[simp] theorem rests_getSlots {post : Slots H → World H → Prop} : Rests getSlots w post ↔ post w.stack w := Iff.rfl

@[simp] theorem rests_lookup {post : Option (Entry H) → World H → Prop} :
    Rests (lookup id) w post ↔ post (w.stack.find? id) w := Iff.rfl

@[simp] theorem rests_note (n : Note) {post : Unit → World H → Prop} :
    Rests (note b n) w post ↔ post () { w with memory := b.note n w.memory } := Iff.rfl

theorem rests_notes (ns : List Note) {post : Unit → World H → Prop} (h : ∀ m, post () { w with memory := m }) :
    Rests (notes b ns) w post := by
  unfold notes
  induction ns generalizing w with
  | nil => exact (rests_pure ()).2 (h w.memory)
  | cons n ns ih => exact (rests_bind _ _).2 (ih h)

/-! ## The depth at which the stack is at work -/

/-- As many layers run, and events are being delivered or not as before. -/
structure Level (s s' : Slots H) : Prop where
  depth : s'.depth = s.depth
  pumping : s'.pumping = s.pumping

theorem Level.refl (s : Slots H) : Level s s := ⟨rfl, rfl⟩

/-- What is level stays so when it begins from slots of the same depth. -/
theorem Level.before {s s' s'' : Slots H} (h : Level s' s'') (hd : s'.depth = s.depth) (hp : s'.pumping = s.pumping) :
    Level s s'' := ⟨h.depth.trans hd, h.pumping.trans hp⟩

theorem Level.trans {s s' s'' : Slots H} (h : Level s s') (h' : Level s' s'') : Level s s'' :=
  ⟨h'.depth.trans h.depth, h'.pumping.trans h.pumping⟩

/-- A layer runs, or events are being delivered. -/
def Busy (s : Slots H) : Prop := 0 < s.depth ∨ s.pumping = true

theorem Busy.quiet {s : Slots H} (h : Busy s) : s.Quiet := h.imp_right .inl

theorem Level.busy {s s' : Slots H} (h : Level s s') (hb : Busy s) : Busy s' := by
  unfold Busy at hb ⊢
  rw [h.depth, h.pumping]
  exact hb

theorem level_enqueue {s : Slots H} (source : Handle) (e : Event) : Level s (s.enqueue source e) := by
  unfold Slots.enqueue
  split
  · split
    · exact .refl s
    · split
      · exact ⟨rfl, rfl⟩
      · exact ⟨rfl, rfl⟩
  · exact ⟨rfl, rfl⟩

theorem insert_frame (s : Slots H) (name : String) (layer : Layer H) :
    Level s (s.insert name layer) ∧ (s.insert name layer).queue = s.queue := by
  unfold Slots.insert
  split
  · exact ⟨⟨rfl, rfl⟩, rfl⟩
  · exact ⟨⟨rfl, rfl⟩, rfl⟩

/-- What a request of the application leaves: the depth is the same, and no event is to be delivered. -/
structure Resting (s s' : Slots H) : Prop extends Level s s' where
  quiet : s'.Quiet

theorem Resting.refl {s : Slots H} (h : s.Quiet) : Resting s s := ⟨.refl s, h⟩

theorem Resting.trans {s s' s'' : Slots H} (h : Resting s s') (h' : Resting s' s'') : Resting s s'' :=
  ⟨h.toLevel.trans h'.toLevel, h'.quiet⟩

/-- Where no event is added, none is to be delivered. -/
theorem Resting.of_queue {s s' : Slots H} (hq : s.Quiet) (h : Level s s') (hqueue : s'.queue = s.queue) : Resting s s' := by
  refine ⟨h, ?_⟩
  unfold Quiet at hq ⊢
  rw [h.depth, h.pumping, hqueue]
  exact hq

/-- How requests are answered that leave no event to be delivered. -/
def Settles (A : Answers H) : Prop := ∀ r w, w.stack.Quiet → Rests (A r) w fun _ w' => Resting w.stack w'.stack

theorem performPcb_rests (p : PcbRef H.Pcb) (o : PcbOp) (hq : w.stack.Quiet) :
    Rests (performPcb b p o) w fun _ w' => w'.stack = w.stack := by
  unfold performPcb
  cases p with
  | loopback i =>
    dsimp only
    rw [rests_bind, rests_get]
    split
    · exact fun _ => hq
    · rw [rests_bind, rests_modify]
      exact (rests_bind _ _).2 (rests_notes _ fun m => (rests_pure _).2 rfl)
  | external p => exact rfl

theorem insert_rests (layer : Layer H) (hq : w.stack.Quiet) :
    Rests (insert b layer) w fun _ w' => Resting w.stack w'.stack := by
  obtain ⟨hlevel, hqueue⟩ := insert_frame w.stack (layerName b layer) layer
  exact .of_queue hq hlevel hqueue

theorem openPcb_rests (p : PcbRef H.Pcb) (hq : w.stack.Quiet) :
    Rests (openPcb b p) w fun _ w' => Resting w.stack w'.stack := by
  unfold openPcb
  rw [rests_bind, rests_getSlots]
  refine Rests.step (performPcb_rests p _ hq) fun _ w' hw => ?_
  rw [← hw] at hq ⊢
  exact insert_rests _ hq

theorem wrap_rests (inner : Handle) (layer : Layer H) (hq : w.stack.Quiet) :
    Rests (wrap b inner layer) w fun _ w' => Resting w.stack w'.stack := by
  unfold wrap
  rw [rests_bind, rests_lookup]
  split
  · exact (rests_pure _).2 (.refl hq)
  · split
    · exact (rests_pure _).2 (.refl hq)
    · refine Rests.step (insert_rests layer hq) fun outer w' h => ?_
      rw [rests_bind, rests_modifySlots, rests_bind, rests_note, rests_pure]
      exact h.trans (.of_queue h.quiet ⟨rfl, rfl⟩ rfl)

/-! ## While a layer runs -/

section

variable {A : Answers H} (hA : Settles A)
include hA

theorem program_rests {γ : Type} (p : Act H γ) (hq : w.stack.Quiet) :
    Rests (p.run A) w fun _ w' => Resting w.stack w'.stack := by
  induction p generalizing w with
  | done a => exact (rests_pure a).2 (.refl hq)
  | ask r next ih =>
    refine Rests.step (hA r w hq) fun x w' h => ?_
    exact (ih x h.quiet).mono fun _ w'' h' => h.trans h'

theorem answerLayer_rests (me : Handle) (r : Layer.Req H) (hb : Busy w.stack) :
    Rests ((answerLayer b A me r).run flag) w fun _ w' => Level w.stack w'.stack := by
  cases r with
  | ask id o =>
    exact Rests.step (hA _ w hb.quiet) fun _ _ h => h.toLevel
  | cover inner l =>
    exact Rests.step (hA _ w hb.quiet) fun _ _ h => h.toLevel
  | pcb p o =>
    refine Rests.step (performPcb_rests p o hb.quiet) fun _ w' hw => (rests_pure _).2 ?_
    rw [hw]
    exact .refl _
  | emit e => exact level_enqueue me e
  | fail reason => exact level_enqueue me (.error reason)
  | inner | release | pollInterval | note n | newEngine config name | shared | setShared v => exact .refl _

omit hA in
theorem running_rests {I : Interface} {γ : Type} {answer : (r : I.Req) → Running H (I.Ans r)}
    (ha : ∀ r w flag, Busy w.stack → Rests ((answer r).run flag) w fun _ w' => Level w.stack w'.stack)
    (p : Program I γ) (hb : Busy w.stack) :
    Rests ((p.run answer).run flag) w fun _ w' => Level w.stack w'.stack := by
  induction p generalizing w flag with
  | done a => exact .refl _
  | ask r next ih =>
    rw [Program.run_ask, StateT.run_bind]
    refine Rests.step (ha r w flag hb) fun x w' h => ?_
    exact (ih x.1 (h.busy hb)).mono fun _ _ h' => h.trans h'

theorem runMethod_rests (me : Handle) (m : Method) (layer : Layer H) (hb : Busy w.stack) :
    Rests ((runMethod b A me m layer).run flag) w fun _ w' => Level w.stack w'.stack := by
  have hlayer : ∀ {γ : Type} (p : Program (Layer.io H) γ),
      Rests ((p.run (answerLayer b A me)).run flag) w fun _ w' => Level w.stack w'.stack := fun p =>
    running_rests (fun r w flag hb => answerLayer_rests hA me r hb) p hb
  have hmap : ∀ {γ δ : Type} (x : Running H γ) (f : γ → δ),
      (Rests (x.run flag) w fun _ w' => Level w.stack w'.stack) →
        Rests ((x >>= fun a => pure (f a)).run flag) w fun _ w' => Level w.stack w'.stack := fun x f h => by
    rw [StateT.run_bind]
    exact (rests_bind _ _).2 h
  cases layer with
  | plain l => exact hmap _ _ (hlayer _)
  | secure l => exact hmap _ _ (hlayer _)
  | passthrough name => exact hmap _ _ (hlayer _)
  | custom l =>
    refine hmap _ _ (running_rests (fun r w flag hb => ?_) _ hb)
    cases r with
    | inl r => exact answerLayer_rests hA me r hb
    | inr r => exact Rests.step (hA r w hb.quiet) fun _ _ h => h.toLevel

variable {free : Handle → Exec H Unit} (hfree : ∀ id w, Rests (free id) w fun _ w' => Level w.stack w'.stack)

/-- A method of a layer, from the slots while it runs to those when it has returned. -/
theorem aside_rests (id : Handle) (m : Method) (layer : Layer H) (f : Entry H → Entry H) :
    Rests ((runMethod b A id m layer).run false)
      { w with stack := { w.stack.update id f with depth := w.stack.depth + 1 } } fun _ w' =>
        Level w.stack { w'.stack with depth := w'.stack.depth - 1 } := by
  refine (runMethod_rests hA id m layer (.inl (Nat.succ_pos _))).mono fun r w' h => ⟨?_, h.pumping⟩
  show w'.stack.depth - 1 = _
  rw [h.depth]
  rfl

include hfree in
theorem withLayer_rests (id : Handle) (m : Method) :
    Rests (withLayer b A free id m) w fun _ w' => Level w.stack w'.stack := by
  unfold withLayer
  rw [rests_bind, rests_lookup]
  split
  · exact .refl _
  · split
    · exact .refl _
    · rename_i layer _
      rw [rests_bind, rests_modifySlots]
      refine Rests.step (aside_rests hA id m layer _) fun r w' h => ?_
      simp only [rests_bind, rests_modifySlots, rests_getSlots]
      split
      · simp only [rests_bind, rests_modifySlots]
        split
        · refine Rests.step (hfree id _) fun _ w'' h' => (rests_pure _).2 ?_
          exact h.trans (h'.before rfl rfl)
        · exact (rests_pure _).2 (h.trans ⟨rfl, rfl⟩)
      · exact h

theorem dealloc_rests (id : Handle) : Rests (dealloc b A id) w fun _ w' => Level w.stack w'.stack := by
  unfold dealloc
  rw [rests_bind, rests_lookup]
  split
  · exact .refl _
  · rename_i layer _
    rw [rests_bind, rests_modifySlots]
    exact Rests.step (aside_rests hA id .dealloc layer _) fun r w' h => h

theorem freeEntry_rests (k : Nat) : ∀ id w, Rests (freeEntry b A k id) w fun _ w' => Level w.stack w'.stack := by
  induction k with
  | zero => exact fun id w => rests_outOfFuel
  | succ k ih =>
    intro id w
    unfold freeEntry
    refine Rests.step (dealloc_rests hA id) fun _ w₁ h₁ => ?_
    rw [rests_bind, rests_lookup]
    split
    · exact h₁
    · rename_i e _
      rw [rests_bind, rests_modifySlots]
      -- whatever is done to the slots themselves leaves them level
      have hbelow : ∀ w₂ : World H, Level w.stack w₂.stack → ∀ inner : Handle, Rests (do
          if (← getSlots).outer? inner = some id then
            modifySlots fun s => (s.update inner fun i => { i with outer := none }).clearCallbacks inner
            let _ ← withLayer b A (freeEntry b A k) inner (.op .abort)
            freeEntry b A k inner
          note b (.trace "connection freed" [id.field, ("layer", e.name)])) w₂ fun _ w' =>
            Level w.stack w'.stack := by
        intro w₂ h₂ inner
        rw [rests_bind, rests_getSlots]
        split
        · rw [rests_bind, rests_modifySlots]
          refine Rests.step (withLayer_rests hA ih inner _) fun _ w₃ h₃ => ?_
          refine Rests.step (ih inner w₃) fun _ w₄ h₄ => ?_
          exact h₂.trans ((h₃.trans h₄).before rfl rfl)
        · exact h₂
      have h₂ : Level w.stack (w₁.stack.vacate id) := h₁.trans ⟨rfl, rfl⟩
      cases e.outer with
      | none =>
        cases hi : e.inner with
        | none => exact h₂
        | some inner => exact hbelow _ h₂ inner
      | some outer =>
        cases hi : e.inner with
        | none => exact h₂.trans ⟨rfl, rfl⟩
        | some inner =>
          show Rests (_ >>= _) _ _
          rw [rests_bind, rests_modifySlots]
          refine hbelow _ ?_ inner
          exact ⟨h₂.depth, h₂.pumping⟩

/-! ## Events -/

theorem callback_rests (id : Handle) (kind : CallbackKind) (call : Call) {absent : Exec H Outcome}
    (hb : Busy w.stack) (habsent : Rests absent w fun _ w' => Level w.stack w'.stack) :
    Rests (callback b A id kind call absent) w fun _ w' => Level w.stack w'.stack := by
  unfold callback
  rw [rests_bind, rests_lookup]
  split
  · exact habsent
  · split
    · exact habsent
    · rw [rests_bind, rests_modifySlots]
      refine Rests.step (program_rests hA _ (Busy.quiet hb)) fun r w' h => ?_
      rw [rests_bind, rests_modifySlots]
      exact (rests_pure _).2 ⟨h.depth, h.pumping⟩

section

include hfree

theorem settleRecv_rests (source : Handle) (v : Outcome) :
    Rests (settleRecv b A free source v) w fun _ w' => Level w.stack w'.stack :=
  Rests.step (withLayer_rests hA hfree source _) fun _ _ h => h

theorem deliverToLayer_rests (outer source : Handle) (e : Event) (hb : Busy w.stack) :
    Rests (deliverToLayer b A free outer source e) w fun _ w' => Level w.stack w'.stack := by
  unfold deliverToLayer
  refine Rests.step (withLayer_rests hA hfree outer _) fun v w' h => ?_
  dsimp only
  generalize (v.bind fun r => r : Outcome) = verdict
  split
  · rw [rests_bind, rests_note]
    exact Rests.mono (hA _ _ (h.busy hb).quiet) fun _ w'' h' => h.trans h'.toLevel
  · exact (settleRecv_rests hA hfree source _).mono fun _ w'' h' => h.trans h'
  · exact h

theorem deliverToApp_rests (me : Handle) (e : Event) (hb : Busy w.stack) :
    Rests (deliverToApp b A free me e) w fun _ w' => Level w.stack w'.stack := by
  have hplain : ∀ kind call (o : Outcome), Rests (do
      let _ ← callback b A me kind call (pure o)
      pure ()) w fun _ w' => Level w.stack w'.stack := fun kind call o =>
    Rests.step (callback_rests hA me kind call hb ((rests_pure _).2 (.refl _))) fun _ _ h => h
  cases e with
  | accept new =>
    refine Rests.step (callback_rests hA me .accept _ hb ((rests_pure _).2 (.refl _))) fun v w' h => ?_
    split
    · exact h
    · rw [rests_bind, rests_note]
      exact Rests.mono (hA _ _ (h.busy hb).quiet) fun _ w'' h' => h.trans h'.toLevel
  | recv data =>
    refine Rests.step (callback_rests hA me .recv _ hb ?_) fun v w' h => ?_
    · rw [rests_bind, rests_note]
      exact Rests.step (hA _ _ (Busy.quiet hb)) fun _ w' h => h.toLevel
    · exact (settleRecv_rests hA hfree me v).mono fun _ w'' h' => h.trans h'
  | connected r => exact hplain _ _ _
  | eof => exact hplain _ _ _
  | sent len => exact hplain _ _ _
  | poll => exact hplain _ _ _
  | error reason => exact .refl _

theorem deliver_rests (q : Queued H) (hb : Busy w.stack) :
    Rests (deliver b A free q) w fun _ w' => Level w.stack w'.stack := by
  unfold deliver
  split
  · split
    · rw [rests_bind, rests_note]
      split
      · exact .refl _
      · exact Rests.step (program_rests hA _ (Busy.quiet hb)) fun r w' h => h.toLevel
    · exact .refl _
  · exact deliverToLayer_rests hA hfree _ _ _ hb
  · rw [rests_bind, rests_lookup]
    split
    · exact .refl _
    · split
      · exact deliverToLayer_rests hA hfree _ _ _ hb
      · exact deliverToApp_rests hA hfree _ _ hb

/-- When all events are delivered, none is left. -/
theorem drain_rests (k : Nat) : ∀ w : World H, Busy w.stack →
    Rests (drain b A free k) w fun _ w' => Level w.stack w'.stack ∧ w'.stack.queue = [] := by
  induction k with
  | zero => exact fun w _ => rests_outOfFuel
  | succ k ih =>
    intro w hb
    unfold drain
    rw [rests_bind, rests_getSlots]
    split
    · rename_i hq
      exact ⟨.refl _, hq⟩
    · rw [rests_bind, rests_modifySlots]
      refine Rests.step (deliver_rests hA hfree _ hb) fun _ w' h => ?_
      exact (ih w' (h.busy hb)).mono fun _ w'' h' => ⟨(h.trans h'.1).before rfl rfl, h'.2⟩

/-- Whatever waits, nothing does afterwards that is to be delivered. -/
theorem pump_rests (k : Nat) : Rests (pump b A free k) w fun _ w' => Resting w.stack w'.stack := by
  unfold pump
  rw [rests_bind, rests_getSlots]
  split
  · rename_i hbusy
    refine (rests_pure _).2 (.refl (Busy.quiet ?_))
    simpa [Busy] using hbusy
  · rename_i hidle
    rw [rests_bind, rests_modifySlots]
    refine Rests.step (drain_rests hA hfree k _ (.inr rfl)) fun _ w' h => ?_
    rw [rests_modifySlots]
    have hp : w.stack.pumping = false := by
      simp only [Bool.or_eq_true, not_or, Bool.not_eq_true] at hidle
      exact hidle.2
    exact ⟨⟨h.1.depth, hp.symm⟩, .inr (.inr h.2)⟩

/-! ## Requests -/

theorem call_rests (k : Nat) (id : Handle) (o : Op) :
    Rests (call b A free k id o) w fun _ w' => Resting w.stack w'.stack := by
  unfold call
  refine Rests.step (withLayer_rests hA hfree id _) fun r w' h => ?_
  refine Rests.step (pump_rests hA hfree k) fun _ w'' h' => ?_
  have hrest : Resting w.stack w''.stack := ⟨h.trans h'.toLevel, h'.quiet⟩
  split
  · exact hrest
  · exact hrest

theorem operate_rests (k : Nat) (id : Handle) (o : Op) (hq : w.stack.Quiet) :
    Rests (operate b A free k id o) w fun _ w' => Resting w.stack w'.stack := by
  unfold operate
  split
  · rw [rests_bind, rests_getSlots]
    split
    · rw [rests_bind, rests_note]
      refine Rests.step (withLayer_rests hA hfree id _) fun r w' h => ?_
      rw [rests_bind, rests_getSlots]
      split
      · rw [rests_bind]
        show Rests (free id >>= fun _ => pump b A free k) _ _
        refine Rests.step (hfree id _) fun _ w'' h' => ?_
        refine (pump_rests hA hfree k).mono fun _ w₃ h₃ => ⟨?_, h₃.quiet⟩
        have henqueue := level_enqueue (s := w'.stack) id (.error .aborted)
        exact h.trans (henqueue.trans (h'.trans h₃.toLevel))
      · exact (pump_rests hA hfree k).mono fun _ w'' h' => ⟨h.trans h'.toLevel, h'.quiet⟩
    · exact .refl hq
  · rw [rests_bind, rests_getSlots]
    split
    · rw [rests_bind, rests_modifySlots]
      exact (call_rests hA hfree k id _).mono fun _ w' h => ⟨h.toLevel.before rfl rfl, h.quiet⟩
    · exact .refl hq
  · rw [rests_bind, rests_note]
    exact call_rests hA hfree k id _
  · exact call_rests hA hfree k id _

end

theorem dispatch_rests (id : Handle) (a : Arrival H.Pcb) (hq : w.stack.Quiet) :
    Rests (dispatch b A id a) w fun _ w' => Resting w.stack w'.stack := by
  cases a with
  | event e => exact hA _ w hq
  | accepted p =>
    unfold dispatch
    rw [rests_bind, rests_getSlots]
    split
    · refine Rests.step (openPcb_rests p hq) fun new w₁ h₁ => ?_
      refine Rests.step (hA _ w₁ h₁.quiet) fun v w₂ h₂ => ?_
      split
      · exact h₁.trans h₂
      · exact Rests.step (hA _ w₂ h₂.quiet) fun _ w₃ h₃ => h₁.trans (h₂.trans h₃)
    · rw [rests_bind, rests_note]
      refine Rests.step (performPcb_rests p _ hq) fun _ w' hw => (rests_pure _).2 ?_
      rw [hw]
      exact .refl hq

theorem stepNet_rests (hq : w.stack.Quiet) : Rests (stepNet b A) w fun _ w' => Resting w.stack w'.stack := by
  unfold stepNet
  rw [rests_bind, rests_get]
  split
  · exact .refl hq
  · rename_i r _
    rw [rests_bind, rests_modify]
    refine (rests_bind _ _).2 (rests_notes _ fun m => ?_)
    dsimp only
    split
    · exact .refl hq
    · exact Rests.step (dispatch_rests hA _ _ hq) fun _ _ h => h
    · refine Rests.step (performPcb_rests _ _ hq) fun _ w' hw => (rests_pure _).2 ?_
      rw [hw]
      exact .refl hq
    · rw [rests_bind, rests_modify]
      split
      · exact .refl hq
      · rw [rests_bind, rests_note]
        exact Rests.step (dispatch_rests hA _ _ hq) fun _ _ h => h
    · refine Rests.step (dispatch_rests hA _ _ hq) fun v w' h => ?_
      split
      · exact h
      · exact h
    · exact .refl hq
    · exact .refl hq

theorem settleNet_rests (k : Nat) : ∀ (done : Nat) (w : World H), w.stack.Quiet →
    Rests (settleNet b A k done) w fun _ w' => Resting w.stack w'.stack := by
  induction k with
  | zero => exact fun done w hq => .refl hq
  | succ k ih =>
    intro done w hq
    refine Rests.step (hA .step w hq) fun more w' h => ?_
    split
    · exact (ih _ w' h.quiet).mono fun _ w'' h' => h.trans h'
    · exact h

omit hA in
theorem forM_rests {γ : Type} {f : γ → Exec H PUnit}
    (hf : ∀ a (w : World H), w.stack.Quiet → Rests (f a) w fun _ w' => Resting w.stack w'.stack) (l : List γ) :
    ∀ w : World H, w.stack.Quiet → Rests (l.forM f) w fun _ w' => Resting w.stack w'.stack := by
  induction l with
  | nil => exact fun w hq => .refl hq
  | cons a l ih =>
    intro w hq
    refine Rests.step (hf a w hq) fun _ w' h => ?_
    exact (ih w' h.quiet).mono fun _ w'' h' => h.trans h'

include hfree in
theorem answer_settles (k : Nat) : Settles (answer b A free k) := by
  intro r w hq
  have hframe : ∀ (x : Handle) (f : Entry H → Entry H), Resting w.stack (w.stack.update x f) := fun x f =>
    .of_queue hq ⟨rfl, rfl⟩ rfl
  cases r with
  | ask id o => exact operate_rests hA hfree k id o hq
  | insert layer => exact insert_rests layer hq
  | wrap inner layer => exact wrap_rests inner layer hq
  | openPcb p => exact openPcb_rests p hq
  | dispatch id a => exact dispatch_rests hA id a hq
  | step => exact stepNet_rests hA hq
  | settle => exact settleNet_rests hA _ 0 w hq
  | pcb p o =>
    refine (performPcb_rests p o hq).mono fun _ w' hw => ?_
    rw [hw]
    exact .refl hq
  | tick =>
    show Rests (_ >>= _) w _
    rw [rests_bind, rests_get, rests_bind, rests_modify]
    refine forM_rests (fun id w hq => ?_) _ _ hq
    exact Rests.step (dispatch_rests hA _ _ hq) fun _ _ h => h
  | clearCallbacks id =>
    show Resting w.stack (w.stack.clearCallbacks id)
    exact hframe id _
  | register id kind code =>
    show Rests (_ >>= _) w _
    rw [rests_bind, rests_getSlots]
    split
    · exact (rests_bind _ _).2 ((rests_modifySlots _).2 (hframe id _))
    · exact .refl hq
  | modifyLayer id f =>
    show Rests (_ >>= _) w _
    rw [rests_bind, rests_lookup]
    split
    · exact (rests_bind _ _).2 ((rests_modifySlots _).2 (hframe id _))
    · exact .refl hq
  | lookup id | slots | newPcb | net | split id sizes | failCloses id count | newEngine config name | shared
  | setShared v | «recall» | remember m | note n => exact .refl hq

end

/-- **A request that is interrupted leaves no event to be delivered**, and neither does one that is not. -/
theorem exec_settles (b : Behaviour H) (k : Nat) : Settles (exec b k) := by
  induction k with
  | zero => exact fun r w _ => rests_outOfFuel
  | succ k ih => exact answer_settles ih (freeEntry_rests ih k) k

theorem run_rests (fuel : Nat) (p : Act H α) (hw : w.stack = {}) :
    Rests (run b fuel p) w fun _ w' => w'.stack.Quiet := by
  refine (program_rests (exec_settles b fuel) p ?_).mono fun _ _ h => h.quiet
  rw [hw]
  exact .inr (.inr rfl)

end Stack

end Conduit
