import Conduit.Proofs.Stack.Erased
import Conduit.Proofs.Stack.Lives

/-!
# Layers in their places

A layer that runs is away from its slot. It is back whenever a callback begins, no layer is called for while it is away,
and a connection stays as long as its layer runs; it goes only when its layer has just said farewell.

* `Register`: an observer that knows which connections are there, and which is about to go.
* `Traced.Tidy`: a computation during which the log is as that observer allows.
* `Traced.withLayer_tidy`: so is a method that runs in its connection's slot,
* `Traced.freeEntry_undoes`: and so is the end of a connection, with all that is below it.
-/

namespace Conduit

open Stack Slots

variable {H : Host}

/-! ## The observer -/

/-- No layer is away. -/
structure Slots.Whole (s : Slots H) : Prop where
  depth : s.depth = 0
  layer : ∀ x e, s.find? x = some e → e.layer ≠ none

theorem Slots.Sound.whole {s : Slots H} (h : s.Sound []) : s.Whole :=
  ⟨h.depth, fun x e he hl => List.not_mem_nil ((h.home x e he).1 hl)⟩

/-- What an observer of the connections knows: which are there, and the one whose layer has said farewell. -/
structure Register where
  alive : Handle → Bool
  leaving : Option Handle := none

/-- The connections that are there. -/
def Register.of (s : Slots H) : Register := ⟨s.isAlive, none⟩

/-- Whether an incident concerns events only. -/
def Incident.isTraffic : Incident H → Bool
  | .queued _ | .began | .taken _ | .delivered | .ceased | .returned => true
  | .called _ _ | .reentered _ | .vanished _ | .born _ | .farewell _ | .freed _ => false

/-- What the observer allows. A callback begins while all layers are in their places; a handle is given to one
connection at a time; a layer says farewell only for its connection to go, which it does at once. -/
inductive Register.Step : Register → Incident H → Register → Prop
  | traffic {i : Incident H} (h : i.isTraffic = true) (a : Handle → Bool) : Step ⟨a, none⟩ i ⟨a, none⟩
  | called (call : Call) {s : Slots H} (h : s.Whole) (a : Handle → Bool) : Step ⟨a, none⟩ (.called call s) ⟨a, none⟩
  | born {id : Handle} {a : Handle → Bool} (h : a id = false) :
    Step ⟨a, none⟩ (.born id) ⟨fun x => a x || decide (x = id), none⟩
  | farewell {id : Handle} {a : Handle → Bool} (h : a id = true) : Step ⟨a, none⟩ (.farewell id) ⟨a, some id⟩
  | freed {id : Handle} {a : Handle → Bool} (h : a id = true) :
    Step ⟨a, some id⟩ (.freed id) ⟨fun x => a x && decide (x ≠ id), none⟩

theorem Slots.isAlive_enqueue (s : Slots H) (id : Handle) (e : Event) (x : Handle) :
    (s.enqueue id e).isAlive x = s.isAlive x := by
  cases he : e.isError with
  | false =>
    rw [enqueue_event he]
    rfl
  | true =>
    cases e with
    | error reason =>
      obtain ⟨-, -, -, halive, -⟩ := departs_error s id reason
      exact halive x
    | _ => cases he

theorem Register.of_eq {s s' : Slots H} (h : ∀ x, s'.isAlive x = s.isAlive x) : of s' = of s := by
  unfold of
  rw [show s'.isAlive = s.isAlive from funext h]

namespace Traced

variable {α β : Type} {w : World H} {id : Handle} {R K : List Handle} {top flag : Bool}

/-! ## Computations that keep to it -/

/-- The log of `x`, run from `w`, is as the observer allows; and if the run ends, the observer knows which connections
there are then. -/
def Tidy (x : Traced H α) (w : World H) : Prop :=
  Leads Register.Step x w (.of w.stack) fun _ c w' => c = .of w'.stack

theorem Tidy.pure (a : α) : Tidy (pure a : Traced H α) w := Leads.pure rfl

theorem Tidy.lift {y : Exec H α} (hy : Exec.Ends y w fun _ w' => ∀ x, w'.stack.isAlive x = w.stack.isAlive x) :
    Tidy (lift y) w :=
  Leads.lift (hy.mono fun _ _ h => (Register.of_eq h).symm)

theorem Tidy.mark {t : List (Incident H)} (ht : ∀ i ∈ t, i.isTraffic = true) : Tidy (mark t) w := by
  refine Leads.mark ?_ rfl
  induction t with
  | nil => exact .nil _
  | cons i t ih =>
    exact .cons (.traffic (ht i List.mem_cons_self) _) (ih fun j hj => ht j (List.mem_cons_of_mem i hj))

/-- One computation after another, where something is known of how the first one ends. -/
theorem Tidy.bind {x : Traced H α} {f : α → Traced H β} {P : α → World H → Prop} (hx : Tidy x w)
    (hk : Exec.Ends x.erase w P) (hf : ∀ a w', P a w' → Tidy (f a) w') : Tidy (x >>= f) w := by
  refine Leads.bind ((hx.and hk).mono ?_)
  rintro a c w' ⟨rfl, h⟩
  exact hf a w' h

/-- What follows does so whatever there is. -/
theorem Tidy.then {x : Traced H α} {f : α → Traced H β} (hx : Tidy x w) (hf : ∀ a w', Tidy (f a) w') :
    Tidy (x >>= f) w :=
  hx.bind (P := fun _ _ => True) (fun _ _ _ => trivial) fun a w' _ => hf a w'

theorem Tidy.lift_bind {y : Exec H α} {f : α → Traced H β}
    (h : Exec.Ends y w fun a w' => (∀ x, w'.stack.isAlive x = w.stack.isAlive x) ∧ Tidy (f a) w') :
    Tidy (Traced.lift y >>= f) w :=
  (Tidy.lift (h.mono fun _ _ h => h.1)).bind (h.mono fun _ _ h => h.2) fun _ _ h => h

theorem Tidy.mark_bind {t : List (Incident H)} {f : Unit → Traced H β} (ht : ∀ i ∈ t, i.isTraffic = true)
    (h : Tidy (f ()) w) : Tidy (Traced.mark t >>= f) w :=
  (Tidy.mark ht).bind (P := fun _ w' => w' = w) ((Exec.ends_pure ()).2 rfl) fun _ _ hw => hw ▸ h

/-- A computation as part of a method at work. -/
theorem Tidy.run_bind {x : Traced H α} {f : α × Bool → Traced H β} {P : α → World H → Prop} (hx : Tidy x w)
    (hk : Exec.Ends x.erase w P) (hf : ∀ a w', P a w' → Tidy (f (a, flag)) w') :
    Tidy ((monadLift x : Running H α).run flag >>= f) w := by
  refine Leads.bind (.run ((hx.and hk).mono ?_))
  rintro a c w' ⟨rfl, h⟩
  exact hf a w' h

/-! ## Layers at work -/

/-- What is known of a recorded run that ends, is known of the run with a log. -/
theorem Erases.known {x : Traced H α} {y : Recorded H α} {z : Exec H α} {post : α → List (Mark H) → World H → Prop}
    (hx : Erases x z) (hy : y.forget = z) (h : Recorded.Ends y w post) :
    Exec.Ends x.erase w fun a w' => ∃ t, post a t w' := by
  intro a w' hrun
  rw [hx] at hrun
  obtain ⟨t, ht⟩ := Recorded.exists_record hy hrun
  exact ⟨t, h (a, t) w' ht⟩

/-- How requests are answered while layers run: as is known of recorded runs, and with a log as the observer allows. -/
structure Meek (A : Answers H) (B : Recorded.Answers H) : Prop where
  erases : ∀ r, Erases (A r) (B r).forget
  modest : Recorded.Modest B
  ask : ∀ R id o w, R ≠ [] → w.stack.Sound R → w.stack.Clear R id →
    (∀ e, w.stack.find? id = some e → e.outer ≠ none) → (Method.op o).isLower = false → Tidy (A (.ask id o)) w
  cover : ∀ R inner l w, w.stack.Sound R → Tidy (A (.wrap inner (.secure l))) w

/-- What frees a connection, while the layers of others run. -/
structure Undoes (free : Handle → Traced H Unit) (free' : Handle → Recorded H Unit) : Prop where
  erases : ∀ id, Erases (free id) (free' id).forget
  frees : Recorded.Frees free'
  tidy : ∀ R id w, w.stack.Sound R → w.stack.Clear R id → w.stack.isAlive id = true → Tidy (free id) w

variable {b : Behaviour H} {A : Answers H} {B : Recorded.Answers H} {free : Handle → Traced H Unit}
  {free' : Handle → Recorded H Unit}

theorem enqueue_tidy (id : Handle) (e : Event) : Tidy (enqueue (H := H) id e) w := by
  refine .lift_bind (ends_getSlots.2 ⟨fun _ => rfl, .then (.mark ?_) fun _ w' => .lift ?_⟩)
  · intro i hi
    obtain ⟨q, -, rfl⟩ := List.mem_map.1 hi
    rfl
  · exact (ends_modifySlots _).2 fun x => isAlive_enqueue _ id e x

theorem insert_tidy (hs : w.stack.Sound R) (layer : Layer H) : Tidy (insert b layer) w := by
  have hnext : w.stack.isAlive w.stack.nextHandle = false := isAlive_eq_false.2 (find?_nextHandle hs.toCounted)
  refine Leads.bind (.lift (ends_getSlots.2 (.bind (.mark (.single (.born hnext)) (.lift ?_)))))
  unfold Stack.insert
  simp only [Exec.ends_bind, ends_getSlots, ends_modifySlots, ends_note, Exec.ends_pure, Register.of, Register.mk.injEq,
    and_true]
  funext x
  unfold isAlive
  rw [find?_insert hs.toCounted]
  by_cases hx : x = w.stack.nextHandle <;> simp [hx]

theorem openPcb_tidy (hs : w.stack.Sound R) (p : PcbRef H.Pcb) : Tidy (openPcb b p) w := by
  refine .lift_bind (ends_getSlots.2 ⟨fun _ => rfl, .lift_bind ((Recorded.ends_performPcb p _).mono fun _ w' hw => ?_)⟩)
  rw [hw]
  exact ⟨fun _ => rfl, insert_tidy (hw ▸ hs) _⟩

theorem wrap_tidy (hs : w.stack.Sound R) (inner : Handle) (layer : Layer H) : Tidy (wrap b inner layer) w := by
  refine .lift_bind ((ends_lookup inner).2 ⟨fun _ => rfl, ?_⟩)
  split
  · exact .pure _
  · split
    · exact .pure _
    · refine .then (insert_tidy hs layer) fun outer w' => .lift_bind ((ends_modifySlots _).2 ⟨fun x => ?_, ?_⟩)
      · unfold Slots.link
        rw [isAlive_update, isAlive_update]
      · exact .lift_bind ((ends_note _).2 ⟨fun _ => rfl, .pure _⟩)

/-- **A layer that asks only as it may** is never called for while it runs, and nothing goes but what is below it. -/
theorem inward_tidy (hA : Meek A B) {p : Program (Layer.io H) α} {post : List Handle → Bool → α → Prop}
    (hp : p.Inward top K post) (htop : top = true → R = []) (hs : w.stack.Sound (id :: R)) (hc : w.stack.Clear R id)
    (hk : Recorded.Known w.stack id K) : Tidy ((p.run (answerLayer b A id)).run false) w := by
  induction p generalizing K w with
  | done a => exact .pure _
  | ask r next ih =>
    -- after a request that has done something
    have hafter : ∀ (x : (Layer.io H).Ans r) (K' : List Handle) (w' : World H), w'.stack.Sound (id :: R) →
        (top = false → w.stack.Shrinks w'.stack) → (next x).Inward top K' post → Recorded.Known w'.stack id K' →
        Tidy (((next x).run (answerLayer b A id)).run false) w' := by
      intro x K' w' hs' hsh hx hk'
      refine ih x hx hs' ?_ hk'
      cases top with
      | true =>
        rw [htop rfl]
        exact clear_nil _ _
      | false => exact hc.shrinks (hsh rfl) hs.toLinked hs'.toLinked
    -- after one that leaves the slots as they are
    have hquiet : ∀ (x : (Layer.io H).Ans r) (K' : List Handle) (w' : World H), w'.stack = w.stack →
        (next x).Inward top K' post → Recorded.Known w.stack id K' →
        (∀ y, w'.stack.isAlive y = w.stack.isAlive y) ∧ Tidy (((next x).run (answerLayer b A id)).run false) w' := by
      intro x K' w' hw hx hk'
      refine ⟨fun y => by rw [hw], hafter x K' w' (hw ▸ hs) (fun _ => ?_) hx (hw ▸ hk')⟩
      rw [hw]
      exact .refl _
    rw [Program.run_ask]
    show Tidy ((answerLayer b A id r).run false >>= fun x => ((next x.1).run (answerLayer b A id)).run x.2) w
    cases r with
    | ask x o =>
      obtain ⟨hx, ho, hnext⟩ := hp
      have hup : ∀ e, w.stack.find? x = some e → e.outer ≠ none := fun e he hnone => by
        rw [hk x hx e he] at hnone
        cases hnone
      have hclear := hk.clear hs hc hx
      refine .run_bind (hA.ask _ x o w (by simp) hs hclear hup ho)
        ((hA.erases _).known rfl (hA.modest.ask _ x o w (by simp) hs hclear hup ho)) ?_
      rintro a w' ⟨t, h⟩
      exact hafter a K w' h.sound (fun _ => h.shrinks) (hnext a) (hk.shrinks h.shrinks)
    | emit e =>
      obtain ⟨he, hnext⟩ := hp
      have hsh : w.stack.Shrinks (w.stack.enqueue id e) := shrinks_enqueue_event he
      have hknown : Exec.Ends (enqueue (H := H) id e).erase w fun _ w' => w'.stack = w.stack.enqueue id e := by
        rw [enqueue_erases]
        exact (ends_modifySlots _).2 rfl
      refine .run_bind (enqueue_tidy id e) hknown fun a w' hw => ?_
      exact hafter () K w' (hw ▸ hs.enqueue id e) (fun _ => hw ▸ hsh) hnext (hk.shrinks (hw ▸ hsh))
    | release =>
      obtain ⟨a, ha, hpost⟩ := hp
      refine Leads.bind (Leads.pure (a := ((), true)) ?_)
      rw [ha]
      exact Leads.pure rfl
    | fail reason =>
      obtain ⟨-, a, ha, hpost⟩ := hp
      refine Leads.bind ?_
      show Leads _ ((monadLift (enqueue (H := H) id (.error reason)) : Running H Unit).run false >>= fun r =>
        (set true : Running H PUnit).run r.2) w _ _
      refine Leads.bind (.run ((enqueue_tidy id (.error reason)).mono ?_))
      rintro u c w' rfl
      refine Leads.pure ?_
      rw [ha]
      exact Leads.pure rfl
    | cover inner l =>
      obtain ⟨ht, hnext⟩ := hp
      refine .run_bind (hA.cover _ inner l w hs) ((hA.erases _).known rfl (hA.modest.cover _ inner l w hs)) ?_
      rintro a w' ⟨t, hs', -, -⟩
      refine hafter a [] w' hs' (fun hf => ?_) (hnext a) (fun x hx => absurd hx List.not_mem_nil)
      rw [ht] at hf
      cases hf
    | pcb p o =>
      refine .lift_bind ((ends_run_lift _).2 ((Recorded.ends_performPcb p o).mono fun a w' hw => ?_))
      exact hquiet a K w' hw (hp a) hk
    | newEngine config name =>
      refine .lift_bind ((ends_run_lift _).2 ((Recorded.ends_newEngine config name).mono fun a w' hw => ?_))
      exact hquiet a K w' hw (hp a) hk
    | inner =>
      refine .lift_bind fun a w' h => ?_
      cases h
      exact hquiet _ _ w rfl (hp _) (hk.inner hs.toLinked)
    | pollInterval | shared =>
      refine .lift_bind fun a w' h => ?_
      cases h
      exact hquiet _ K w rfl (hp _) hk
    | note n | setShared v =>
      refine .lift_bind fun a w' h => ?_
      cases h
      exact hquiet _ K _ rfl hp hk

/-- A layer at work, whose state is then put away. -/
theorem tidy_run_map {γ : Type} {m : Running H α} {g : α → γ} (h : Tidy (m.run flag) w) :
    Tidy ((m >>= fun a => pure (g a)).run flag) w :=
  .then h fun _ _ => .pure _

theorem runMethod_tidy [IsEmpty H.Layer] (hA : Meek A B) {m : Method} (hm : m ≠ .dealloc)
    (htop : m.isLower = true → R = []) (hs : w.stack.Sound (id :: R)) (hc : w.stack.Clear R id) (layer : Layer H) :
    Tidy ((runMethod b A id m layer).run false) w := by
  have hknown : Recorded.Known w.stack id [] := fun x hx => absurd hx List.not_mem_nil
  cases layer with
  | plain l => exact tidy_run_map (inward_tidy hA (Plain.step_inward id m hm l) htop hs hc hknown)
  | secure l => exact tidy_run_map (inward_tidy hA (Secure.step_inward m hm l) htop hs hc hknown)
  | passthrough name => exact tidy_run_map (inward_tidy hA (Layer.forward_inward m ()) htop hs hc hknown)
  | custom l => exact isEmptyElim l

theorem withLayer_known [IsEmpty H.Layer] (hA : Meek A B) (hfree : Undoes free free') {m : Method} (hm : m ≠ .dealloc)
    (htop : m.isLower = true → R = []) (hs : w.stack.Sound R) (hc : w.stack.Clear R id) :
    Exec.Ends (withLayer b A free id m).erase w fun _ w' => ∃ t, Recorded.Handled m id R w.stack t w'.stack :=
  (withLayer_erases hA.erases hfree.erases id m).known (Recorded.forget_withLayer B free' id m)
    (Recorded.withLayer_ends hA.modest hfree.frees hm htop hs hc)

/-- **A method runs in its connection's slot**, where its layer is, and to which it comes back. -/
theorem withLayer_tidy [IsEmpty H.Layer] (hA : Meek A B) (hfree : Undoes free free') {m : Method} (hm : m ≠ .dealloc)
    (htop : m.isLower = true → R = []) (hs : w.stack.Sound R) (hc : w.stack.Clear R id) :
    Tidy (withLayer b A free id m) w := by
  refine .lift_bind ((ends_lookup id).2 ⟨fun _ => rfl, ?_⟩)
  cases hf : w.stack.find? id with
  | none => exact .pure _
  | some e =>
    cases hl : e.layer with
    | none => exact absurd ((hs.home id e hf).1 hl) hc.not_mem
    | some layer =>
      have halive : w.stack.isAlive id = true := isAlive_iff.2 ⟨e, hf⟩
      simp only [hl]
      refine .lift_bind ((ends_modifySlots _).2 ⟨fun x => isAlive_update, ?_⟩)
      -- the layer is away while its method runs
      generalize hs₁ : ({ w.stack.update id (fun e => { e with layer := none }) with
        depth := w.stack.depth + 1 } : Slots H) = s₁
      have hsound₁ : s₁.Sound (id :: R) := hs₁ ▸ hs.enter halive
      have hout : w.stack.Shrinks (w.stack.update id fun e => { e with layer := none }) :=
        .of_update (fun _ => rfl) fun _ => rfl
      have hclear₁ : s₁.Clear R id := hc.shrinks (hs₁ ▸ hout.trans (.of_same rfl rfl rfl)) hs.toLinked hsound₁.toLinked
      have hknown := (runMethod_erases hA.erases id m layer false).known
        (Recorded.forget_run_runMethod B id m layer false)
        (Recorded.runMethod_ends (b := b) (w := { w with stack := s₁ }) hA.modest hm htop hsound₁ hclear₁ layer)
      refine .bind (runMethod_tidy hA hm htop hsound₁ hclear₁ layer) hknown ?_
      rintro ⟨⟨layer', reply⟩, release⟩ w₂ ⟨t, -, hran⟩
      refine .lift_bind ((ends_modifySlots _).2 ⟨fun _ => rfl, .lift_bind (ends_getSlots.2 ⟨fun _ => rfl, ?_⟩)⟩)
      have halive₂ : ({ w₂.stack with depth := w₂.stack.depth - 1 } : Slots H).isAlive id = true :=
        hran.sound.running id List.mem_cons_self
      simp only [halive₂, if_true]
      -- then it is put back
      refine .lift_bind ((ends_modifySlots _).2 ⟨fun x => isAlive_update, ?_⟩)
      cases release with
      | false => exact .pure _
      | true =>
        -- the layer has let its connection go, which is freed before anything else happens
        have hsound₃ := hran.sound.leave hc.not_mem layer'
        have hback : w₂.stack.Shrinks { w₂.stack with depth := w₂.stack.depth - 1 } := .of_same rfl rfl rfl
        have hsh₃ : w₂.stack.Shrinks (({ w₂.stack with depth := w₂.stack.depth - 1 } : Slots H).update id fun e =>
            { e with layer := some layer' }) := hback.trans (.of_update (fun _ => rfl) fun _ => rfl)
        refine .then (hfree.tidy R id _ hsound₃ ?_ (isAlive_update.trans halive₂)) fun _ _ => .pure _
        cases hlow : m.isLower with
        | true =>
          rw [htop hlow]
          exact clear_nil _ _
        | false => exact hclear₁.shrinks ((hran.shrinks hlow).trans hsh₃) hsound₁.toLinked hsound₃.toLinked

/-! ## The end of a connection -/

/-- What a layer does for its farewell is not logged. -/
theorem still_leads {σ : Type} {step : σ → Incident H → σ → Prop} {c : σ} {p : Program (Layer.io H) α} (hp : p.Still) :
    Leads step ((p.run (answerLayer b A id)).run false) w c fun _ c' w' => c' = c ∧ w'.stack = w.stack := by
  induction p generalizing w with
  | done a => exact .pure ⟨rfl, rfl⟩
  | ask r next ih =>
    rw [Program.run_ask]
    show Leads step ((answerLayer b A id r).run false >>= fun x => ((next x.1).run (answerLayer b A id)).run x.2) w c _
    cases r with
    | pcb p o =>
      refine .bind (.lift ((ends_run_lift _).2 ((Recorded.ends_performPcb p o).mono fun r w' hw => ?_)))
      rw [← hw]
      exact ih r (hp r)
    | note n =>
      refine .bind (.lift fun a w' h => ?_)
      cases h
      exact ih () hp
    | _ => cases hp

theorem runMethod_dealloc_leads [IsEmpty H.Layer] {σ : Type} {step : σ → Incident H → σ → Prop} {c : σ}
    (layer : Layer H) : Leads step ((runMethod b A id .dealloc layer).run false) w c fun _ c' w' =>
      c' = c ∧ w'.stack = w.stack := by
  have hmap : ∀ {γ δ : Type} {m : Running H γ} {g : γ → δ},
      (Leads step (m.run false) w c fun _ c' w' => c' = c ∧ w'.stack = w.stack) →
        Leads step ((m >>= fun a => pure (g a)).run false) w c fun _ c' w' => c' = c ∧ w'.stack = w.stack :=
    fun h => .bind (h.mono fun _ _ _ h => .pure h)
  cases layer with
  | plain l => exact hmap (still_leads (Plain.dealloc_still id l))
  | secure l => exact hmap (still_leads (Secure.dealloc_still b.engine id l))
  | passthrough name => exact hmap (still_leads (Layer.forward_dealloc_still ()))
  | custom l => exact isEmptyElim l

/-- A layer says farewell, and is not put back. -/
theorem dealloc_leads [IsEmpty H.Layer] {e : Entry H} (he : w.stack.find? id = some e) (hl : e.layer ≠ none) :
    Leads Register.Step (dealloc b A id) w (.of w.stack) fun _ c w' =>
      c = ⟨w.stack.isAlive, some id⟩ ∧ w'.stack = w.stack.update id fun e => { e with layer := none } := by
  obtain ⟨layer, hl⟩ := Option.ne_none_iff_exists'.1 hl
  have halive : w.stack.isAlive id = true := isAlive_iff.2 ⟨e, he⟩
  refine .bind (.lift ((ends_lookup id).2 ?_))
  simp only [he, Option.bind_some, hl]
  refine .bind (.mark (.single (.farewell halive)) (.bind (.lift ((ends_modifySlots _).2 (.bind ?_)))))
  refine (runMethod_dealloc_leads layer).mono ?_
  rintro r c w' ⟨rfl, hw⟩
  refine .lift ((ends_modifySlots _).2 ⟨rfl, ?_⟩)
  rw [hw]
  rfl

theorem isAlive_vacate {s : Slots H} {e : Entry H} (he : s.find? id = some e) (x : Handle) :
    (s.vacate id).isAlive x = (s.isAlive x && decide (x ≠ id)) := by
  unfold isAlive
  rw [find?_vacate he]
  by_cases hx : x = id <;> simp [hx]

/-- What stands below a connection that goes is aborted, and freed as well. -/
theorem abortBelow_tidy [IsEmpty H.Layer] (hA : Meek A B) (hfree : Undoes free free') (n : Note)
    (hs : w.stack.Sound R) (hc : w.stack.Clear R id) (ha : w.stack.isAlive id = true) :
    Tidy (do
      let _ ← withLayer b A free id (.op .abort)
      free id
      lift (note b n)) w := by
  have hlow : (Method.op .abort).isLower = true → R = [] := fun hf => absurd hf Bool.false_ne_true
  refine .bind (withLayer_tidy hA hfree (by simp) hlow hs hc) (withLayer_known hA hfree (by simp) hlow hs hc) ?_
  rintro _ w₁ ⟨t, h⟩
  have hc₁ := hc.shrinks (h.shrinks rfl) hs.toLinked h.sound.toLinked
  refine .then (hfree.tidy R id w₁ h.sound hc₁ ((h.aborted rfl).trans ha)) fun _ w₂ => ?_
  exact .lift ((ends_note n).2 fun _ => rfl)

/-- What stood below a connection that is gone, and that those above have let go, goes as well, unless it is another's
by now. -/
theorem bereave_tidy [IsEmpty H.Layer] (hA : Meek A B) (hfree : Undoes free free') (n : Note) {s : Slots H}
    {e : Entry H} {i : Handle} (hl : s.Linked) (he : s.find? id = some e) (hi : e.inner = some i)
    (hs : (s.release id e).Sound R) (hc : s.Clear R id) (hw : w.stack = (s.vacate id).letGo id e.outer) :
    Tidy (do
      if (← lift getSlots).outer? i = some id then
        lift (modifySlots fun s => (s.update i fun i => { i with outer := none }).clearCallbacks i)
        let _ ← withLayer b A free i (.op .abort)
        free i
      lift (note b n)) w := by
  refine .lift_bind (ends_getSlots.2 ⟨fun _ => rfl, ?_⟩)
  split
  · rename_i hstill
    refine .lift_bind ((ends_modifySlots _).2 ⟨fun x => isAlive_update.trans isAlive_update, ?_⟩)
    obtain ⟨hne, -, -, hout⟩ := hl.find?_below he hi
    have hon : s.On id i := (hl.agree id i).2 hout
    have hrelease : (w.stack.update i fun i => { i with outer := none }).clearCallbacks i = s.release id e := by
      rw [hw] at hstill ⊢
      simp only [release, bereave, hi, hstill, if_true]
    have hclear : (s.release id e).Clear R i := (hc.down hon).release hl he
    have halive : (s.release id e).isAlive i = true := by
      obtain ⟨ei, hei, -⟩ := outer?_eq_some.1 hout
      rw [hl.isAlive_release he, isAlive_iff.2 ⟨ei, hei⟩]
      simpa using hne
    rw [← hrelease] at hs hclear halive
    exact abortBelow_tidy hA hfree _ hs hclear halive
  · exact .lift ((ends_note n).2 fun _ => rfl)

/-- **A connection is freed, with all that is below it**, each of them when its layer has just said farewell. The
induction is on the number of connections that may be below it. -/
theorem freeEntry_undoes [IsEmpty H.Layer] (hA : Meek A B) (k : Nat) :
    Undoes (freeEntry b A k) (Recorded.freeEntry b B k) := by
  have herases : ∀ k id, Erases (freeEntry b A k id) (Recorded.freeEntry b B k id).forget := fun k id =>
    (freeEntry_erases hA.erases k id).trans (Recorded.forget_freeEntry B k id).symm
  induction k with
  | zero => exact ⟨herases 0, Recorded.freeEntry_frees hA.modest 0, fun _ _ _ _ _ _ => .lift (Exec.ends_throw _)⟩
  | succ k ih =>
    refine ⟨herases (k + 1), Recorded.freeEntry_frees hA.modest (k + 1), fun R id w hs hc ha => ?_⟩
    obtain ⟨e, he⟩ := isAlive_iff.1 ha
    -- no layer at or below the connection runs, so its own is in place
    have hl : e.layer ≠ none := fun hl => hc.not_mem ((hs.home id e he).1 hl)
    refine Leads.bind ((dealloc_leads he hl).mono ?_)
    rintro _ c w₁ ⟨rfl, hw₁⟩
    generalize hs₁ : w.stack.update id (fun e => { e with layer := none }) = s₁ at hw₁
    have hsh₁ : w.stack.Shrinks s₁ := hs₁ ▸ .of_update (fun _ => rfl) fun _ => rfl
    have halive₁ : ∀ x, s₁.isAlive x = w.stack.isAlive x := fun x => hs₁ ▸ isAlive_update
    have hlinked₁ : s₁.Linked := hs₁ ▸ hs.toLinked.update (fun _ _ => rfl) fun _ _ => rfl
    obtain ⟨e₁, he₁⟩ := isAlive_iff.1 ((halive₁ id).trans ha)
    have hsound₂ : (s₁.release id e₁).Sound R := by
      subst hs₁
      exact (hs.enter ha).freed hc.not_mem he₁
    refine Leads.bind (.lift ((ends_lookup id).2 ?_))
    rw [hw₁, he₁]
    refine Leads.bind (.mark (.single (.freed ha)) (.bind (.lift ((ends_modifySlots _).2 ?_))))
    -- from here on the connection is gone
    have hgone : (⟨fun x => w.stack.isAlive x && decide (x ≠ id), none⟩ : Register) = .of (s₁.vacate id) := by
      unfold Register.of
      rw [show (s₁.vacate id).isAlive = _ from funext fun x => (isAlive_vacate he₁ x).trans (by rw [halive₁])]
    rw [hgone, hw₁]
    have hnote : ∀ w₂ : World H, Tidy (lift (note b (.trace "connection freed" [id.field, ("layer", e₁.name)]))) w₂ :=
      fun w₂ => .lift ((ends_note _).2 fun _ => rfl)
    have hclear₁ : s₁.Clear R id := hc.shrinks hsh₁ hs.toLinked hlinked₁
    show Tidy _ { w₁ with stack := s₁.vacate id }
    cases ho : e₁.outer with
    | none =>
      cases hi : e₁.inner with
      | none => exact hnote _
      | some i => exact bereave_tidy hA ih _ hlinked₁ he₁ hi hsound₂ hclear₁ (by rw [ho]; rfl)
    | some outer =>
      refine .lift_bind ((ends_modifySlots _).2 ⟨fun x => isAlive_update, ?_⟩)
      cases hi : e₁.inner with
      | none => exact hnote _
      | some i => exact bereave_tidy hA ih _ hlinked₁ he₁ hi hsound₂ hclear₁ (by rw [ho]; rfl)

end Traced

end Conduit
