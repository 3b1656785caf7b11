import Conduit.Proofs.Stack.Working

/-!
# Layers never call the application

Whatever a layer asks while it runs, nobody is called before it returns: what there is to tell waits in the queue.

* `Recorded.Hushed`: what calls nobody, and leaves as many layers running as there were.
* `Recorded.withLayer_hushed`, `Recorded.freeEntry_hushed`: a method runs, or a connection is freed, and nobody is called.
* `Recorded.exec_silent`: **no request that is made while a layer runs calls anybody.**
-/

namespace Conduit

open Exec

variable {H : Host} {b : Behaviour H} {w : World H} {id : Handle}

/-- Whether a mark says that the application was called. -/
def Mark.calls : Mark H → Bool
  | .called _ _ _ | .told _ _ _ _ => true
  | _ => false

/-- Queueing an event lets no layer run. -/
theorem Slots.depth_enqueue (s : Slots H) (id : Handle) (e : Event) : (s.enqueue id e).depth = s.depth := by
  unfold Slots.enqueue
  split
  · split
    · rfl
    · split <;> rfl
  · rfl

theorem Slots.depth_insert (s : Slots H) (name : String) (layer : Layer H) : (s.insert name layer).depth = s.depth := by
  unfold Slots.insert
  split <;> rfl

namespace Recorded

open Stack

variable {α β : Type} {n : Nat}

/-- With at least `n` layers running, `x` calls nobody, and leaves as many running as there were. -/
def Hushed (n : Nat) (x : Recorded H α) : Prop := ∀ w, n ≤ w.stack.depth →
  Ends x w fun _ t w' => w'.stack.depth = w.stack.depth ∧ ∀ m ∈ t, m.calls = false

theorem Hushed.deeper {m : Nat} {x : Recorded H α} (h : Hushed m x) (hn : m ≤ n) : Hushed n x :=
  fun w hw => h w (Nat.le_trans hn hw)

theorem Hushed.bind {x : Recorded H α} {f : α → Recorded H β} (hx : Hushed n x) (hf : ∀ a, Hushed n (f a)) :
    Hushed n (x >>= f) := by
  intro w hw
  refine (ends_bind _ _).2 ((hx w hw).mono fun a t w₁ ⟨hd, ht⟩ => (hf a w₁ (hd ▸ hw)).mono fun c u w₂ ⟨hd', hu⟩ => ?_)
  exact ⟨hd'.trans hd, List.forall_mem_append.2 ⟨ht, hu⟩⟩

theorem hushed_pure (a : α) : Hushed n (pure a : Recorded H α) := fun _ _ => (ends_pure a).2 ⟨rfl, by simp⟩

/-- What lets no layer run, and is not recorded. -/
theorem hushed_lift {x : Exec H α} (hx : ∀ w, Exec.Ends x w fun _ w' => w'.stack.depth = w.stack.depth) :
    Hushed n (lift x) := fun w _ => (ends_lift x).2 ((hx w).mono fun _ _ h => ⟨h, by simp⟩)

theorem hushed_record {t : List (Mark H)} (ht : ∀ m ∈ t, m.calls = false) : Hushed n (record t) := fun _ _ =>
  (ends_record t).2 ⟨rfl, ht⟩

theorem hushed_getSlots : Hushed n (lift (getSlots (H := H))) := hushed_lift fun _ => ends_getSlots.2 rfl

theorem hushed_lookup (id : Handle) : Hushed n (lift (lookup (H := H) id)) := hushed_lift fun _ =>
  (ends_lookup id).2 rfl

theorem hushed_note (x : Note) : Hushed n (lift (note b x)) := hushed_lift fun _ => (Stack.ends_note x).2 rfl

theorem hushed_slots {f : Slots H → Slots H} (hf : ∀ s, (f s).depth = s.depth) : Hushed n (lift (modifySlots f)) :=
  hushed_lift fun w => (ends_modifySlots f).2 (hf w.stack)

theorem hushed_throw (e : Halt) : Hushed n (lift (throw e : Exec H α)) := hushed_lift fun _ => Exec.ends_throw e

theorem hushed_performPcb (p : PcbRef H.Pcb) (o : PcbOp) : Hushed n (lift (performPcb b p o)) := hushed_lift fun _ =>
  (ends_performPcb p o).mono fun _ _ hw => by rw [hw]

/-- A layer at work that calls nobody, and leaves as many running as there were. -/
def HushedRun (n : Nat) (x : Running H α) : Prop := ∀ flag, Hushed n (x.run flag)

theorem HushedRun.bind {x : Running H α} {f : α → Running H β} (hx : HushedRun n x) (hf : ∀ a, HushedRun n (f a)) :
    HushedRun n (x >>= f) := by
  intro flag
  rw [StateT.run_bind]
  exact (hx flag).bind fun r => hf r.1 r.2

theorem hushedRun_pure (a : α) : HushedRun n (pure a : Running H α) := fun flag => hushed_pure (a, flag)

theorem hushedRun_lift {x : Recorded H α} (hx : Hushed n x) : HushedRun n (monadLift x : Running H α) := fun _ w hw =>
  (ends_run_lift x).2 (hx w hw)

/-! ## Layers -/

/-- How requests are answered while layers run: nobody is called. -/
def Silent (A : Answers H) : Prop := ∀ r, Hushed 1 (A r)

theorem enqueue_hushed (id : Handle) (e : Event) : Hushed n (enqueue (H := H) id e) := by
  unfold enqueue
  refine hushed_getSlots.bind fun s => (hushed_record ?_).bind fun _ => hushed_slots fun s => s.depth_enqueue id e
  unfold ending
  split
  · split
    · split <;> simp [Mark.calls]
    · simp
  · simp

theorem insert_hushed (layer : Layer H) : Hushed n (insert b layer) := by
  unfold insert
  refine hushed_getSlots.bind fun s => (hushed_record (by simp [Mark.calls])).bind fun _ => hushed_lift fun w => ?_
  unfold Stack.insert
  simp [Slots.depth_insert]

theorem openPcb_hushed (p : PcbRef H.Pcb) : Hushed n (openPcb b p) := by
  unfold openPcb
  exact hushed_getSlots.bind fun s => (hushed_performPcb _ _).bind fun _ => insert_hushed _

theorem wrap_hushed (inner : Handle) (layer : Layer H) : Hushed n (wrap b inner layer) := by
  unfold wrap
  refine (hushed_lookup inner).bind fun e => ?_
  split
  · exact hushed_pure _
  · split
    · exact hushed_pure _
    · exact (insert_hushed _).bind fun _ => (hushed_slots fun _ => by rfl).bind fun _ => (hushed_note _).bind fun _ =>
        hushed_pure _

/-- A program of a layer. -/
theorem program_hushed {I : Interface} {f : (r : I.Req) → Running H (I.Ans r)} (hf : ∀ r, HushedRun 1 (f r))
    (p : Program I α) : HushedRun 1 (p.run f) := by
  induction p with
  | done a => exact hushedRun_pure a
  | ask r next ih =>
    rw [Program.run_ask]
    exact (hf r).bind ih

/-- A method runs while its layer is away, one deeper than all others. -/
theorem away_hushed {x : Recorded H α} (hx : Hushed 1 x) {f g : Slots H → Slots H} {t : α → List (Mark H)}
    {k : α → Recorded H β} (hf : ∀ s, (f s).depth = s.depth + 1) (hg : ∀ s, (g s).depth = s.depth - 1)
    (ht : ∀ a, ∀ m ∈ t a, m.calls = false) (hk : ∀ a, Hushed n (k a)) :
    Hushed n (do
      lift (modifySlots f)
      let a ← x
      record (t a)
      lift (modifySlots g)
      k a) := by
  intro w hw
  refine (ends_bind _ _).2 ((ends_lift _).2 ((ends_modifySlots f).2 ?_))
  refine (ends_bind _ _).2 ((hx { w with stack := f w.stack } (by simp [hf])).mono fun a u w₁ ⟨hd, hu⟩ => ?_)
  have hback : (g w₁.stack).depth = w.stack.depth := by
    rw [hg, hd]
    simp [hf]
  simp only [ends_bind, ends_record, ends_lift, ends_modifySlots, List.nil_append]
  refine (hk a { w₁ with stack := g w₁.stack } (hback ▸ hw)).mono fun c v w₂ ⟨hd', hv⟩ => ⟨hd'.trans hback, ?_⟩
  exact List.forall_mem_append.2 ⟨hu, List.forall_mem_append.2 ⟨ht a, hv⟩⟩

section

variable {A : Answers H} (hA : Silent A)
include hA

theorem answerLayer_hushed (me : Handle) (r : Layer.Req H) : HushedRun 1 (answerLayer b A me r) := by
  have hset : HushedRun 1 (set true : Running H PUnit) := fun _ => hushed_pure _
  have hlift : ∀ {r : Layer.Req H}, (∀ flag w, Exec.Ends ((Stack.answerLayer b unasked me r).run flag) w
      fun _ w' => w'.stack.depth = w.stack.depth) →
      HushedRun 1 (fun flag => lift ((Stack.answerLayer b unasked me r).run flag)) := fun h flag => hushed_lift (h flag)
  cases r with
  | ask x o => exact hushedRun_lift (hA _)
  | emit e => exact hushedRun_lift (enqueue_hushed me e)
  | fail reason => exact (hushedRun_lift (enqueue_hushed me _)).bind fun _ => hset
  | cover inner l => exact hushedRun_lift (hA _)
  | inner => exact hlift fun flag w => by simp [Stack.answerLayer]
  | release =>
    refine hlift fun flag w p w' hrun => ?_
    cases hrun
    rfl
  | pollInterval => exact hlift fun flag w => by simp [Stack.answerLayer]
  | note x => exact hlift fun flag w => by simp [Stack.answerLayer]
  | pcb p o =>
    refine hlift fun flag w => ?_
    simp only [Stack.answerLayer, Stack.ends_run_lift]
    exact (ends_performPcb p o).mono fun _ _ hw => by rw [hw]
  | newEngine config name =>
    refine hlift fun flag w => ?_
    simp only [Stack.answerLayer, Stack.ends_run_lift]
    exact (ends_newEngine config name).mono fun _ _ hw => by rw [hw]
  | shared =>
    refine hlift fun flag w p w' hrun => ?_
    cases hrun
    rfl
  | setShared v =>
    refine hlift fun flag w p w' hrun => ?_
    cases hrun
    rfl

theorem runMethod_hushed (me : Handle) (m : Method) (layer : Layer H) : HushedRun 1 (runMethod b A me m layer) := by
  cases layer with
  | plain s => exact (program_hushed (answerLayer_hushed hA me) _).bind fun _ => hushedRun_pure _
  | secure s => exact (program_hushed (answerLayer_hushed hA me) _).bind fun _ => hushedRun_pure _
  | passthrough name => exact (program_hushed (answerLayer_hushed hA me) _).bind fun _ => hushedRun_pure _
  | custom l =>
    refine (program_hushed (fun r => ?_) _).bind fun _ => hushedRun_pure _
    cases r with
    | inl r => exact answerLayer_hushed hA me r
    | inr r => exact hushedRun_lift (hA r)

theorem withLayer_hushed {free : Handle → Recorded H Unit} (hfree : ∀ x, Hushed n (free x)) (id : Handle) (m : Method) :
    Hushed n (withLayer b A free id m) := by
  unfold withLayer
  refine (hushed_lookup id).bind fun e => ?_
  split
  · exact hushed_pure _
  · split
    · exact hushed_pure _
    · refine away_hushed (runMethod_hushed hA id m _ false) (fun _ => rfl) (fun _ => rfl) (fun r => ?_) fun r => ?_
      · unfold closing
        split <;> simp [Mark.calls]
      · refine hushed_getSlots.bind fun s => ?_
        split
        · refine Hushed.bind (hushed_slots fun _ => rfl) fun _ => ?_
          split
          · exact (hfree id).bind fun _ => hushed_pure _
          · exact hushed_pure _
        · exact (hushed_note _).bind fun _ => hushed_pure _

theorem dealloc_hushed (id : Handle) : Hushed n (dealloc b A id) := by
  unfold dealloc
  refine (hushed_lookup id).bind fun e => ?_
  split
  · exact hushed_pure _
  · rename_i layer _
    -- nothing is recorded of a farewell itself
    have haway := away_hushed (n := n) (t := fun _ => []) (k := fun _ => pure ())
      (runMethod_hushed (b := b) hA id .dealloc layer false) (f := fun s => { s.update id fun e => { e with layer := none }
        with depth := s.depth + 1 }) (g := fun s => { s with depth := s.depth - 1 }) (fun _ => rfl) (fun _ => rfl)
      (fun _ => by simp) fun _ => hushed_pure ()
    intro w hw
    have := haway w hw
    simpa only [ends_bind, ends_record, ends_pure, List.append_nil, List.nil_append] using this

/-- **Freeing a connection calls nobody**, however many are below it. -/
theorem freeEntry_hushed (k : Nat) (id : Handle) : Hushed n (freeEntry b A k id) := by
  -- by induction on how many connections may be below
  induction k generalizing id with
  | zero => exact hushed_throw _
  | succ k ih =>
    unfold freeEntry
    refine (dealloc_hushed hA id).bind fun _ => hushed_getSlots.bind fun s => Hushed.bind (hushed_record ?_) fun _ =>
      (hushed_lookup id).bind fun e => ?_
    · unfold leaving
      split <;> simp [Mark.calls]
    · split
      · exact hushed_pure _
      · rename_i e
        refine Hushed.bind (hushed_slots fun _ => rfl) fun _ => ?_
        have hend : Hushed n (lift (note b (.trace "connection freed" [id.field, ("layer", e.name)]))) := hushed_note _
        -- the connection below goes as well
        have hdown : ∀ i, Hushed n (do
            if (← lift getSlots).outer? i = some id then
              lift (modifySlots fun s => (s.update i fun e => { e with outer := none }).clearCallbacks i)
              let _ ← withLayer b A (freeEntry b A k) i (.op .abort)
              freeEntry b A k i
            lift (note b (.trace "connection freed" [id.field, ("layer", e.name)]))) := by
          intro i
          refine hushed_getSlots.bind fun s => ?_
          split
          · refine Hushed.bind (hushed_slots fun _ => rfl) fun _ => ?_
            exact (withLayer_hushed hA ih i _).bind fun _ => (ih i).bind fun _ => hend
          · exact hend
        cases e.outer with
        | none =>
          cases e.inner with
          | none => exact hend
          | some i => exact hdown i
        | some o =>
          refine Hushed.bind (hushed_slots fun _ => rfl) fun _ => ?_
          cases e.inner with
          | none => exact hend
          | some i => exact hdown i

/-! ## Requests -/

section

variable {free : Handle → Recorded H Unit} (hfree : ∀ x, Hushed 1 (free x))

omit hA in
/-- While a layer runs, events wait. -/
theorem pump_hushed (k : Nat) : Hushed 1 (pump b A free k) := by
  intro w hw
  unfold pump
  -- a layer is running
  have hbusy : (decide (0 < w.stack.depth) || w.stack.pumping) = true := by simp [Nat.lt_of_lt_of_le Nat.zero_lt_one hw]
  simp only [ends_bind, ends_lift, ends_getSlots, hbusy, if_true]
  exact hushed_pure () w hw

include hfree

theorem call_hushed (k : Nat) (id : Handle) (o : Op) : Hushed 1 (call b A free k id o) := by
  unfold call
  refine (withLayer_hushed hA hfree id _).bind fun r => (pump_hushed k).bind fun _ => ?_
  split <;> exact hushed_pure _

theorem operate_hushed (k : Nat) (id : Handle) (o : Op) : Hushed 1 (operate b A free k id o) := by
  cases o with
  | abort =>
    unfold operate
    refine hushed_getSlots.bind fun s => ?_
    split
    · refine hushed_getSlots.bind fun s => Hushed.bind (hushed_record ?_) fun _ => (hushed_note _).bind fun _ =>
        (withLayer_hushed hA hfree id _).bind fun _ => hushed_getSlots.bind fun s => ?_
      · unfold aborting
        split
        · split <;> simp [Mark.calls]
        · simp
      · split
        · exact (enqueue_hushed id _).bind fun _ => (hfree id).bind fun _ => pump_hushed k
        · exact pump_hushed k
    · exact hushed_pure _
  | setPoll interval =>
    unfold operate
    refine hushed_getSlots.bind fun s => ?_
    split
    · exact Hushed.bind (hushed_slots fun _ => rfl) fun _ => call_hushed hA hfree k id _
    · exact hushed_pure _
  | lower e => exact (hushed_note _).bind fun _ => call_hushed hA hfree k id _
  | _ => exact call_hushed hA hfree k id _

omit hfree

theorem dispatch_hushed (id : Handle) (a : Arrival H.Pcb) : Hushed 1 (dispatch b A id a) := by
  cases a with
  | event e => exact hA _
  | accepted p =>
    unfold dispatch
    refine hushed_getSlots.bind fun s => ?_
    split
    · refine (openPcb_hushed p).bind fun new => (hA _).bind fun r => ?_
      split
      · exact hushed_pure _
      · exact (hA _).bind fun _ => hushed_pure _
    · exact (hushed_note _).bind fun _ => (hushed_performPcb _ _).bind fun _ => hushed_pure _

theorem stepNet_hushed : Hushed 1 (stepNet b A) := by
  have hworld : ∀ {f : World H → World H}, (∀ w, (f w).stack = w.stack) → Hushed 1 (lift (modify f : Exec H PUnit)) :=
    fun hf => hushed_lift fun w => (Exec.ends_modify _).2 (by rw [hf])
  have hsilent : Hushed 1 (pure true : Recorded H Bool) := hushed_pure _
  unfold stepNet
  refine Hushed.bind (hushed_lift fun _ => Exec.ends_get.2 rfl) fun w => ?_
  split
  · exact hushed_pure _
  · refine Hushed.bind (hworld fun _ => rfl) fun _ => Hushed.bind (hushed_lift fun w => ends_notes _ fun _ => rfl) fun _ => ?_
    dsimp only
    split
    · exact hsilent
    · exact (dispatch_hushed hA _ _).bind fun _ => hsilent
    · exact (hushed_performPcb _ _).bind fun _ => hsilent
    · refine Hushed.bind (hworld fun _ => rfl) fun _ => ?_
      split
      · exact hsilent
      · exact (hushed_note _).bind fun _ => (dispatch_hushed hA _ _).bind fun _ => hsilent
    · refine (dispatch_hushed hA _ _).bind fun r => ?_
      split
      · exact hsilent
      · exact (hushed_note _).bind fun _ => hsilent
    · exact Hushed.bind (hworld fun _ => rfl) fun _ => hsilent
    · exact hsilent

theorem settleNet_hushed (k done : Nat) : Hushed 1 (settleNet b A k done) := by
  induction k generalizing done with
  | zero => exact (hushed_note _).bind fun _ => hushed_pure _
  | succ k ih =>
    refine (hA .step).bind fun more => ?_
    split
    · exact ih _
    · exact hushed_pure _

theorem polls_hushed (due : List Handle) :
    Hushed 1 (due.forM fun id => do let _ ← dispatch b A id (.event .poll)) := by
  induction due with
  | nil => exact hushed_pure _
  | cons id due ih =>
    exact Hushed.bind ((dispatch_hushed hA id _).bind fun _ => hushed_pure _) fun _ => ih

end

end

variable {A : Answers H} {free : Handle → Recorded H Unit}

theorem answer_silent (hA : Silent A) (hfree : ∀ x, Hushed 1 (free x)) (k : Nat) : Silent (answer b A free k) := by
  intro r
  cases r with
  | ask id o => exact operate_hushed hA hfree k id o
  | insert layer => exact insert_hushed layer
  | wrap inner layer => exact wrap_hushed inner layer
  | openPcb p => exact openPcb_hushed p
  | dispatch id a => exact dispatch_hushed hA id a
  | step => exact stepNet_hushed hA
  | settle => exact settleNet_hushed hA _ _
  | tick =>
    refine Hushed.bind (hushed_lift fun _ => Exec.ends_get.2 rfl) fun w => ?_
    refine Hushed.bind (hushed_lift fun w => (Exec.ends_modify _).2 (by rfl)) fun _ => polls_hushed hA _
  | register id kind code =>
    refine hushed_lift fun w => ?_
    unfold Stack.answer
    simp only [Exec.ends_bind, ends_getSlots]
    split
    · simp only [Exec.ends_bind, ends_modifySlots, Exec.ends_pure]
      rfl
    · exact (Exec.ends_pure _).2 rfl
  | clearCallbacks id =>
    refine hushed_lift fun w => ?_
    unfold Stack.answer
    simp only [ends_modifySlots]
    rfl
  | modifyLayer id f =>
    refine hushed_lift fun w => ?_
    unfold Stack.answer
    simp only [Exec.ends_bind, ends_lookup]
    split
    · simp only [Exec.ends_bind, ends_modifySlots, Exec.ends_pure]
      rfl
    · exact (Exec.ends_pure _).2 rfl
  | pcb p o => exact hushed_performPcb p o
  | newEngine config name =>
    exact hushed_lift fun w => (ends_newEngine config name).mono fun _ _ hw => by rw [hw]
  | _ =>
    refine hushed_lift fun w => ?_
    unfold Stack.answer
    simp

/-- **No request that is made while a layer runs calls anybody.** -/
theorem exec_silent (k : Nat) : Silent (exec b k) := by
  -- a request is answered by running layers, whose requests are answered with one step less
  induction k with
  | zero => exact fun _ => hushed_throw _
  | succ k ih => exact answer_silent ih (freeEntry_hushed ih k) k

end Recorded

end Conduit
