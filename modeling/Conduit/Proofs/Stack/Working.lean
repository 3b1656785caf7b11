import Conduit.Proofs.Layer.Manners
import Conduit.Proofs.Stack.Chronicle

/-!
# Layers at work

What a method of a layer leaves of the slots and of the record, and what freeing a connection leaves of them.

* `Recorded.Modest`: how requests are answered while layers run.
* `Recorded.runMethod_ends`: a method runs, and its connection stays, or is to be let go.
* `Recorded.withLayer_ends`: a method runs in its connection's slot.
* `Recorded.freeEntry_frees`: a connection is freed, with all that is below it.
-/

namespace Conduit

open Exec

variable {H : Host} {b : Behaviour H} {s s' s'' : Slots H} {t u : List (Mark H)} {R K : List Handle} {me id : Handle}
  {top flag : Bool} {w : World H}

/-! ## Events that are queued -/

namespace Slots

theorem enqueue_event {e : Event} (he : e.isError = false) :
    s.enqueue id e = { s with queue := s.queue ++ [⟨id, e, .resolve⟩] } := by
  cases e with
  | error reason => cases he
  | _ => rfl

theorem shrinks_enqueue_event {e : Event} (he : e.isError = false) : s.Shrinks (s.enqueue id e) := by
  rw [enqueue_event he]
  refine ⟨fun x e' hx => ⟨e', hx, rfl, rfl⟩, rfl, [⟨id, e, .resolve⟩], rfl, fun item hitem code hr => ?_⟩
  rw [List.mem_singleton] at hitem
  subst hitem
  cases hr

theorem keeps_enqueue_event {e : Event} (he : e.isError = false) : Keeps s [] (s.enqueue id e) := by
  rw [enqueue_event he]
  refine .of_same (fun _ => rfl) ?_
  unfold outstanding
  rw [List.filterMap_append]
  cases e with
  | error reason => cases he
  | _ => exact List.append_nil _

/-- The connection above learns of an error. -/
theorem enqueue_passed {e : Entry H} {outer : Handle} (he : s.find? id = some e) (ho : e.outer = some outer)
    (reason : Fault) :
    s.enqueue id (.error reason) = { s with queue := s.queue ++ [⟨id, .error reason, .layer outer⟩] } := by
  simp only [Slots.enqueue, he, ho]

/-- Where there is none above, the application does, by the callback that it had registered. -/
theorem enqueue_final {e : Entry H} (he : s.find? id = some e) (ho : e.outer = none) (reason : Fault) :
    s.enqueue id (.error reason) =
      { s.takeCallback id .err with queue := s.queue ++ [⟨id, .error reason, .sink e.callbacks.err⟩] } := by
  simp only [Slots.enqueue, he, ho]
  rfl

/-- An error that a connection has come to is its end, of which the application is to be told; or there is a connection
above, and that one is. -/
theorem departs_error (s : Slots H) (id : Handle) (reason : Fault) :
    ∃ q, Departs id (Recorded.ending s id (.error reason)) q ∧
      (s.enqueue id (.error reason)).outstanding = s.outstanding ++ q ∧
      (∀ x, (s.enqueue id (.error reason)).isAlive x = s.isAlive x) ∧
      (s.enqueue id (.error reason)).pumping = s.pumping := by
  unfold Recorded.ending
  cases he : s.find? id with
  | none =>
    -- an error of a connection that is gone is lost
    have hlost : s.enqueue id (.error reason) = s := by simp only [Slots.enqueue, he]
    rw [hlost]
    exact ⟨[], .freed, (List.append_nil _).symm, fun _ => rfl, rfl⟩
  | some e =>
    cases ho : e.outer with
    | some outer =>
      -- the connection above learns of it
      rw [enqueue_passed he ho]
      simp only [ho, Option.isNone_some, Bool.false_eq_true, if_false]
      refine ⟨[], .freed, ?_, fun _ => rfl, trivial⟩
      simp [outstanding, Queued.owed]
    | none =>
      -- nothing is above, so the application will be told
      rw [enqueue_final he ho]
      simp only [ho, Option.isNone_none, if_true]
      refine ⟨_, .ended reason e.callbacks.err, ?_, fun x => isAlive_update, rfl⟩
      simp only [outstanding, List.filterMap_append]
      cases e.callbacks.err <;> rfl

/-- Below another connection, nobody but that one learns of an error. -/
theorem shrinks_enqueue_error {e : Entry H} {outer : Handle} (he : s.find? id = some e) (ho : e.outer = some outer)
    (reason : Fault) : s.Shrinks (s.enqueue id (.error reason)) := by
  rw [enqueue_passed he ho]
  refine ⟨fun x e' hx => ⟨e', hx, rfl, rfl⟩, rfl, [⟨id, .error reason, .layer outer⟩], rfl, ?_⟩
  intro item hitem code hr
  rw [List.mem_singleton] at hitem
  subst hitem
  cases hr

/-- A connection that is there no more is clear of every layer that runs. -/
theorem Sound.clear_of_dead (hs : s.Sound R) (hd : s.find? id = none) : s.Clear R id := by
  intro r hr hbelow
  rcases hbelow.cases_head with rfl | ⟨y, hon, -⟩
  · obtain ⟨e, he⟩ := isAlive_iff.1 (hs.running id hr)
    rw [hd] at he
    cases he
  · obtain ⟨e, he, -⟩ := inner?_eq_some.1 hon
    rw [hd] at he
    cases he

end Slots

namespace Recorded

open Stack Slots

/-! ## Requests of a layer -/

/-- What work below the layers of `R` leaves of the slots, and of the record. -/
structure Worked (R : List Handle) (s : Slots H) (t : List (Mark H)) (s' : Slots H) : Prop where
  sound : s'.Sound R
  shrinks : s.Shrinks s'
  keeps : Keeps s t s'

/-- How requests are answered while layers run: one of a connection that they leave alone does away with nothing but
what is below, and a connection may be covered. -/
structure Modest (A : Answers H) : Prop where
  ask : ∀ R id o w, R ≠ [] → w.stack.Sound R → w.stack.Clear R id →
    (∀ e, w.stack.find? id = some e → e.outer ≠ none) → (Method.op o).isLower = false →
    Ends (A (.ask id o)) w fun _ t w' => Worked R w.stack t w'.stack
  cover : ∀ R inner l w, w.stack.Sound R → Ends (A (.wrap inner (.secure l))) w fun _ t w' =>
    w'.stack.Sound R ∧ w'.stack.pumping = w.stack.pumping ∧ Keeps w.stack t w'.stack

/-- What a layer leaves of the slots and of the record when its method returns. If it has let its connection go, the
last of the record is how. -/
structure Ran (top flag : Bool) (id : Handle) (R : List Handle) (s : Slots H) (t : List (Mark H)) (s' : Slots H) :
    Prop where
  sound : s'.Sound (id :: R)
  pumping : s'.pumping = s.pumping
  shrinks : top = false → s.Shrinks s'
  stays : flag = false → Keeps s t s'
  goes : flag = true → ∃ t₁ d q s₁, t = t₁ ++ d ∧ Keeps s t₁ s₁ ∧ Departs id d q ∧ (top = false → d = []) ∧
    (∀ x, s'.isAlive x = s₁.isAlive x) ∧ s'.outstanding = s₁.outstanding ++ q

theorem Ran.refl (hs : s.Sound (id :: R)) : Ran top false id R s [] s :=
  ⟨hs, rfl, fun _ => .refl s, fun _ => .refl s, fun h => absurd h (by simp)⟩

/-- The connection is let go, and nothing is said of it. -/
theorem Ran.released (hs : s.Sound (id :: R)) : Ran top true id R s [] s :=
  ⟨hs, rfl, fun _ => .refl s, fun h => absurd h (by simp),
    fun _ => ⟨[], [], [], s, rfl, .refl s, .freed, fun _ => rfl, fun _ => rfl, by simp⟩⟩

/-- What a layer does goes on from what it has done. -/
theorem Ran.after (hp : s'.pumping = s.pumping) (hsh : top = false → s.Shrinks s') (hk : Keeps s t s')
    (h : Ran top flag id R s' u s'') : Ran top flag id R s (t ++ u) s'' := by
  refine ⟨h.sound, h.pumping.trans hp, fun ht => (hsh ht).trans (h.shrinks ht), fun hf => hk.trans (h.stays hf),
    fun hf => ?_⟩
  obtain ⟨t₁, d, q, s₁, rfl, hk₁, hd, hnil, ha, ho⟩ := h.goes hf
  exact ⟨t ++ t₁, d, q, s₁, (List.append_assoc _ _ _).symm, hk.trans hk₁, hd, hnil, ha, ho⟩

/-- The connections of `K`, as far as they are there, are below `id`. -/
def Known (s : Slots H) (id : Handle) (K : List Handle) : Prop := ∀ x ∈ K, ∀ e, s.find? x = some e → e.outer = some id

theorem Known.shrinks (h : Known s id K) (hs : s.Shrinks s') : Known s' id K := by
  intro x hx e' he'
  obtain ⟨e, he, ho, -⟩ := hs.kept x e' he'
  exact ho.trans (h x hx e he)

/-- What a layer is told is below it, is. -/
theorem Known.inner (h : Known s id K) (hs : s.Linked) : Known s id ((s.inner? id).toList ++ K) := by
  intro x hx e he
  rcases List.mem_append.1 hx with hx | hx
  · rw [Option.mem_toList] at hx
    obtain ⟨e', he', ho⟩ := outer?_eq_some.1 ((hs.agree id x).1 hx)
    cases he.symm.trans he'
    exact ho
  · exact h x hx e he

/-- What is known to be below a layer may be asked. -/
theorem Known.clear (h : Known s id K) (hs : s.Sound (id :: R)) (hc : s.Clear R id) {x : Handle} (hx : x ∈ K) :
    s.Clear (id :: R) x := by
  cases hf : s.find? x with
  | none => exact hs.clear_of_dead hf
  | some e =>
    have hon : s.On id x := (hs.agree id x).2 (outer?_eq_some.2 ⟨e, hf, h x hx e hf⟩)
    exact hc.enter hs.toLinked hon

theorem ends_performPcb (p : PcbRef H.Pcb) (o : PcbOp) :
    Exec.Ends (performPcb b p o) w fun _ w' => w'.stack = w.stack := by
  cases p with
  | loopback i =>
    simp only [performPcb, Exec.ends_bind, Exec.ends_get]
    split
    · simp
    · simp only [Exec.ends_bind, Exec.ends_modify]
      exact ends_notes _ fun _ => (Exec.ends_pure _).2 rfl
  | external p => simp [performPcb]

/-- A request that is none of a connection leaves the slots alone. -/
theorem ends_newEngine (config : Tls.Config H.Source) (name : Option Tls.ServerName) :
    Exec.Ends (Stack.newEngine b config name) w fun _ w' => w'.stack = w.stack := by
  simp [Stack.newEngine]

/-- **What a layer leaves.** A layer that asks only as it may leaves the slots in order, whatever it is answered. -/
theorem inward_ends {α : Type} {A : Answers H} (hA : Modest A) {p : Program (Layer.io H) α}
    {post : List Handle → Bool → α → Prop} (hp : p.Inward top K post) (htop : top = true → R = [])
    (hs : w.stack.Sound (id :: R)) (hc : w.stack.Clear R id) (hk : Known w.stack id K) :
    Ends ((p.run (answerLayer b A id)).run false) w fun r t w' =>
      (∃ K', post K' r.2 r.1) ∧ Ran top r.2 id R w.stack t w'.stack := by
  induction p generalizing K w with
  | done a => exact (ends_run_pure a).2 ⟨⟨K, hp⟩, .refl hs⟩
  | ask r next ih =>
    rw [Program.run_ask]
    refine (ends_run_bind _ _).2 ?_
    -- after a request that leaves the slots as they are
    have hquiet : ∀ (x : (Layer.io H).Ans r) (K' : List Handle) (w' : World H), w'.stack = w.stack →
        (next x).Inward top K' post → Known w.stack id K' →
        Ends (((next x).run (answerLayer b A id)).run false) w' fun r t w' =>
          (∃ K', post K' r.2 r.1) ∧ Ran top r.2 id R w.stack t w'.stack := by
      intro x K' w' hw hx hk'
      rw [← hw]
      exact ih x hx (hw ▸ hs) (hw ▸ hc) (hw ▸ hk')
    -- after one that has done something
    have hafter : ∀ (x : (Layer.io H).Ans r) (K' : List Handle) (t : List (Mark H)) (w' : World H),
        w'.stack.Sound (id :: R) → w'.stack.pumping = w.stack.pumping → (top = false → w.stack.Shrinks w'.stack) →
        Keeps w.stack t w'.stack → (next x).Inward top K' post → Known w'.stack id K' →
        Ends (((next x).run (answerLayer b A id)).run false) w' fun r u w'' =>
          (∃ K', post K' r.2 r.1) ∧ Ran top r.2 id R w.stack (t ++ u) w''.stack := by
      intro x K' t w' hs' hp' hsh hkeeps hx hk'
      have hc' : w'.stack.Clear R id := by
        cases top with
        | true =>
          rw [htop rfl]
          exact clear_nil _ _
        | false => exact hc.shrinks (hsh rfl) hs.toLinked hs'.toLinked
      exact (ih x hx hs' hc' hk').mono fun r u w'' h => ⟨h.1, h.2.after hp' hsh hkeeps⟩
    cases r with
    | inner =>
      show Ends (lift ((do
        pure ((← lookup (H := H) id).bind (·.inner)) : Stack.Running H (Option Handle)).run false)) w _
      simp only [ends_lift, Stack.ends_run_bind, Stack.ends_run_lift, ends_lookup, Stack.ends_run_pure, List.nil_append]
      exact hquiet _ _ w rfl (hp _) (hk.inner hs.toLinked)
    | ask x o =>
      obtain ⟨hx, ho, hnext⟩ := hp
      show Ends ((monadLift (A (.ask x o)) : Running H o.Reply).run false) w _
      refine (ends_run_lift _).2 ((hA.ask (id :: R) x o w (by simp) hs (hk.clear hs hc hx) ?_ ho).mono ?_)
      · intro e he hnone
        rw [hk x hx e he] at hnone
        cases hnone
      · intro r t w' h
        exact hafter r K t w' h.sound h.shrinks.pumping (fun _ => h.shrinks) h.keeps (hnext r) (hk.shrinks h.shrinks)
    | emit e =>
      obtain ⟨he, hnext⟩ := hp
      have hending : ending w.stack id e = [] := by
        cases e with
        | error reason => cases he
        | _ => rfl
      have hsh : w.stack.Shrinks (w.stack.enqueue id e) := shrinks_enqueue_event he
      show Ends ((monadLift (enqueue (H := H) id e) : Running H Unit).run false) w _
      simp only [ends_run_lift, enqueue, ends_bind, ends_lift, ends_getSlots, ends_record, hending, Stack.enqueue,
        ends_modifySlots, List.append_nil]
      exact hafter () K [] _ (hs.enqueue id e) hsh.pumping (fun _ => hsh) (keeps_enqueue_event he) hnext
        (hk.shrinks hsh)
    | release =>
      obtain ⟨a, ha, hpost⟩ := hp
      intro p w' hrun
      cases hrun
      show Ends ((Program.run (answerLayer b A id) (next ())).run true) w _
      rw [ha, Program.run_done, ends_run_pure]
      exact ⟨⟨K, hpost⟩, .released hs⟩
    | fail reason =>
      obtain ⟨ht, a, ha, hpost⟩ := hp
      obtain ⟨q, hd, ho, halive, hpump⟩ := departs_error w.stack id reason
      show Ends ((do monadLift (enqueue (H := H) id (.error reason)); set true : Running H PUnit).run false) w _
      simp only [ends_run_bind, ends_run_lift, enqueue, ends_bind, ends_lift, ends_getSlots, ends_record, Stack.enqueue,
        ends_modifySlots, List.append_nil, List.nil_append]
      intro p w' hrun
      cases hrun
      show Ends ((Program.run (answerLayer b A id) (next ())).run true) _ _
      rw [ha, Program.run_done, ends_run_pure, List.append_nil]
      refine ⟨⟨K, hpost⟩, hs.enqueue id (.error reason), hpump, fun hf => ?_, fun hf => ?_, fun _ => ?_⟩
      · rw [ht] at hf
        cases hf
      · cases hf
      · refine ⟨[], ending w.stack id (.error reason), q, w.stack, List.append_nil _, .refl _, hd, ?_, halive, ho⟩
        intro hf
        rw [ht] at hf
        cases hf
    | cover inner l =>
      obtain ⟨ht, hnext⟩ := hp
      show Ends ((monadLift (A (.wrap inner (.secure l))) : Running H (Except Fault Handle)).run false) w _
      refine (ends_run_lift _).2 ((hA.cover (id :: R) inner l w hs).mono ?_)
      rintro r t w' ⟨hs', hp', hk'⟩
      refine hafter r [] t w' hs' hp' (fun hf => ?_) hk' (hnext r) (fun x hx => ?_)
      · rw [ht] at hf
        cases hf
      · cases hx
    | pollInterval =>
      show Ends (lift ((do
        pure (((← lookup (H := H) id).map (·.pollInterval)).getD 0) : Stack.Running H Nat).run false)) w _
      simp only [ends_lift, Stack.ends_run_bind, Stack.ends_run_lift, ends_lookup, Stack.ends_run_pure, List.nil_append]
      exact hquiet _ _ w rfl (hp _) hk
    | note n =>
      show Ends (lift ((monadLift (note b n) : Stack.Running H Unit).run false)) w _
      simp only [ends_lift, Stack.ends_run_lift, ends_note, List.nil_append]
      exact hquiet _ _ _ rfl hp hk
    | pcb p o =>
      show Ends (lift ((monadLift (performPcb b p o) : Stack.Running H o.Reply).run false)) w _
      simp only [ends_lift, Stack.ends_run_lift, List.nil_append]
      exact (ends_performPcb p o).mono fun r w' hw => hquiet _ _ w' hw (hp r) hk
    | newEngine config name =>
      show Ends (lift ((monadLift (Stack.newEngine b config name) :
        Stack.Running H (Except Fault H.Engine)).run false)) w _
      simp only [ends_lift, Stack.ends_run_lift, List.nil_append]
      exact (ends_newEngine config name).mono fun r w' hw => hquiet _ _ w' hw (hp r) hk
    | shared =>
      intro p w' hrun
      cases hrun
      exact hquiet _ _ w rfl (hp _) hk
    | setShared v =>
      intro p w' hrun
      cases hrun
      exact hquiet _ _ _ rfl hp hk

/-! ## Methods -/

/-- What is left once a connection has been freed. Whatever became of it before, its end is the last that is recorded of
it. -/
structure Freed (R : List Handle) (s : Slots H) (id : Handle) (t : List (Mark H)) (s' : Slots H) : Prop where
  sound : s'.Sound R
  shrinks : s.Shrinks s'
  gone : s'.isAlive id = false
  keeps : ∀ s₀ d q, Departs id d q → (∀ x, s.isAlive x = s₀.isAlive x) → s.outstanding = s₀.outstanding ++ q →
    Keeps s₀ (d ++ t) s'

/-- What frees a connection, while the layers of others run. -/
def Frees (free : Handle → Recorded H Unit) : Prop := ∀ R id w, w.stack.Sound R → w.stack.Clear R id →
  w.stack.isAlive id = true → Ends (free id) w fun _ t w' => Freed R w.stack id t w'.stack

variable {A : Answers H} {free : Handle → Recorded H Unit}

/-- A layer at work, whose state is then put away. -/
theorem ends_run_map {α β : Type} {m : Running H α} {g : α → β} {P : β × Bool → List (Mark H) → World H → Prop}
    (h : Ends (m.run flag) w fun r t w' => P (g r.1, r.2) t w') : Ends ((m >>= fun a => pure (g a)).run flag) w P := by
  refine (ends_run_bind _ _).2 (h.mono ?_)
  intro r t w' hp
  refine (ends_run_pure _).2 ?_
  rw [List.append_nil]
  exact hp

theorem runMethod_ends [IsEmpty H.Layer] (hA : Modest A) {m : Method} (hm : m ≠ .dealloc)
    (htop : m.isLower = true → R = []) (hs : w.stack.Sound (id :: R)) (hc : w.stack.Clear R id) (layer : Layer H) :
    Ends ((runMethod b A id m layer).run false) w fun r t w' =>
      m.Settled r.2 r.1.2 ∧ Ran m.isLower r.2 id R w.stack t w'.stack := by
  have hknown : Known w.stack id [] := fun x hx => absurd hx List.not_mem_nil
  cases layer with
  | plain l =>
    refine ends_run_map ((inward_ends hA (Plain.step_inward id m hm l) htop hs hc hknown).mono ?_)
    rintro r t w' ⟨⟨K, hsettled⟩, hran⟩
    exact ⟨hsettled, hran⟩
  | secure l =>
    refine ends_run_map ((inward_ends hA (Secure.step_inward m hm l) htop hs hc hknown).mono ?_)
    rintro r t w' ⟨⟨K, hsettled⟩, hran⟩
    exact ⟨hsettled, hran⟩
  | passthrough name =>
    refine ends_run_map ((inward_ends hA (Layer.forward_inward m ()) htop hs hc hknown).mono ?_)
    rintro r t w' ⟨⟨K, hsettled⟩, hran⟩
    exact ⟨hsettled, hran⟩
  | custom l => exact isEmptyElim l

theorem Method.not_lower_of_closes {m : Method} {reply : m.Reply} (h : m.closes reply = true) : m.isLower = false := by
  unfold Method.closes at h
  split at h
  · rfl
  · cases h

/-- What is left once a method has run. -/
structure Handled (m : Method) (id : Handle) (R : List Handle) (s : Slots H) (t : List (Mark H)) (s' : Slots H) :
    Prop where
  sound : s'.Sound R
  pumping : s'.pumping = s.pumping
  keeps : Keeps s t s'
  shrinks : m.isLower = false → s.Shrinks s'
  aborted : m = .op .abort → s'.isAlive id = s.isAlive id

theorem Handled.refl (m : Method) (id : Handle) (hs : s.Sound R) : Handled m id R s [] s :=
  ⟨hs, rfl, .refl s, fun _ => .refl s, fun _ => rfl⟩

/-- A connection that has said that it is closed, has not come to another end. -/
theorem departs_closing {m : Method} {reply : m.Reply} {d : List (Mark H)} {q : List (Handle × Fault × H.Code)}
    (hd : Departs id d q) (hnil : m.isLower = false → d = []) : Departs id (d ++ closing id m reply) q := by
  unfold closing
  split
  · rename_i hcloses
    have hempty := hnil (Method.not_lower_of_closes hcloses)
    cases hd with
    | freed => exact .closed
    | closed => cases hempty
    | ended reason code => cases hempty
  · rw [List.append_nil]
    exact hd

/-- **A method runs in its connection's slot**, and leaves the slots in order. -/
theorem withLayer_ends [IsEmpty H.Layer] (hA : Modest A) (hfree : Frees free) {m : Method} (hm : m ≠ .dealloc)
    (htop : m.isLower = true → R = []) (hs : w.stack.Sound R) (hc : w.stack.Clear R id) :
    Ends (withLayer b A free id m) w fun _ t w' => Handled m id R w.stack t w'.stack := by
  unfold withLayer
  simp only [ends_bind, ends_lift, ends_lookup]
  cases hf : w.stack.find? id with
  | none =>
    simp only [ends_pure, List.append_nil]
    exact .refl m id hs
  | some e =>
    cases hl : e.layer with
    | none => exact absurd ((hs.home id e hf).1 hl) hc.not_mem
    | some layer =>
      have halive : w.stack.isAlive id = true := isAlive_iff.2 ⟨e, hf⟩
      simp only [hl, ends_bind, ends_lift, ends_modifySlots]
      -- the layer is away while its method runs
      generalize hs₁ : ({ w.stack.update id (fun e => { e with layer := none }) with
        depth := w.stack.depth + 1 } : Slots H) = s₁
      have hsound₁ : s₁.Sound (id :: R) := hs₁ ▸ hs.enter halive
      have hout : w.stack.Shrinks (w.stack.update id fun e => { e with layer := none }) :=
        .of_update (fun _ => rfl) fun _ => rfl
      have hsh₁ : w.stack.Shrinks s₁ := hs₁ ▸ hout.trans (.of_same rfl rfl rfl)
      have halive₁ : ∀ x, s₁.isAlive x = w.stack.isAlive x := fun x => hs₁ ▸ isAlive_update
      have hkeeps₁ : Keeps w.stack [] s₁ := .of_same halive₁ (hs₁ ▸ rfl)
      have hclear₁ : s₁.Clear R id := hc.shrinks hsh₁ hs.toLinked hsound₁.toLinked
      refine (runMethod_ends (w := { w with stack := s₁ }) hA hm htop hsound₁ hclear₁ layer).mono ?_
      rintro ⟨⟨layer', reply⟩, release⟩ t w₂ ⟨hsettled, hran⟩
      have halive₂ : ({ w₂.stack with depth := w₂.stack.depth - 1 } : Slots H).isAlive id = true :=
        hran.sound.running id List.mem_cons_self
      simp only [ends_record, ends_getSlots, halive₂, if_true, ends_bind, ends_lift, ends_modifySlots]
      -- then it is put back
      generalize hs₃ : ({ w₂.stack with depth := w₂.stack.depth - 1 } : Slots H).update id
        (fun e => { e with layer := some layer' }) = s₃
      have hsound₃ : s₃.Sound R := hs₃ ▸ hran.sound.leave hc.not_mem layer'
      have hback : w₂.stack.Shrinks { w₂.stack with depth := w₂.stack.depth - 1 } := .of_same rfl rfl rfl
      have hsh₃ : w₂.stack.Shrinks s₃ := hs₃ ▸ hback.trans (.of_update (fun _ => rfl) fun _ => rfl)
      have halive₃ : ∀ x, s₃.isAlive x = w₂.stack.isAlive x := fun x => hs₃ ▸ isAlive_update
      have hout₃ : s₃.outstanding = w₂.stack.outstanding := hs₃ ▸ rfl
      have hpump₃ : s₃.pumping = w.stack.pumping := hsh₃.pumping.trans (hran.pumping.trans hsh₁.pumping)
      cases release with
      | false =>
        -- the connection stays
        have hclosing : closing (H := H) id m reply = [] := by
          unfold closing
          rw [if_neg fun hcl => Bool.false_ne_true (hsettled.closed hcl)]
        simp only [Bool.false_eq_true, if_false, ends_pure, hclosing, List.append_nil, List.nil_append]
        refine ⟨hsound₃, hpump₃, ?_, fun hlow => hsh₁.trans ((hran.shrinks hlow).trans hsh₃), fun _ => ?_⟩
        · have hkeeps := hkeeps₁.trans ((hran.stays rfl).trans (.of_same halive₃ hout₃))
          simpa using hkeeps
        · rw [halive₃, halive]
          exact hran.sound.running id List.mem_cons_self
      | true =>
        -- the layer has let its connection go, which is freed before anything else happens
        have hclear₃ : s₃.Clear R id := by
          cases hlow : m.isLower with
          | true =>
            rw [htop hlow]
            exact clear_nil _ _
          | false => exact hclear₁.shrinks ((hran.shrinks hlow).trans hsh₃) hsound₁.toLinked hsound₃.toLinked
        have halive₃' : s₃.isAlive id = true := by
          rw [halive₃]
          exact hran.sound.running id List.mem_cons_self
        simp only [if_true, List.nil_append]
        refine (ends_bind _ _).2 ((hfree R id { w₂ with stack := s₃ } hsound₃ hclear₃ halive₃').mono ?_)
        intro _ u w₄ hfreed
        simp only [ends_pure, List.append_nil]
        refine ⟨hfreed.sound, hfreed.shrinks.pumping.trans hpump₃, ?_,
          fun hlow => hsh₁.trans ((hran.shrinks hlow).trans (hsh₃.trans hfreed.shrinks)), fun habort => ?_⟩
        · obtain ⟨t₁, d, q, s', rfl, hk, hd, hnil, ha, ho⟩ := hran.goes rfl
          have hrest : Keeps s' ((d ++ closing id m reply) ++ u) w₄.stack :=
            hfreed.keeps s' _ q (departs_closing hd hnil) (fun x => (halive₃ x).trans (ha x)) (hout₃.trans ho)
          have hkeeps := hkeeps₁.trans (hk.trans hrest)
          simpa using hkeeps
        · exact absurd (hsettled.aborted habort) (by simp)

/-! ## Freeing -/

/-- A farewell leaves the slots as they are. -/
theorem still_ends {α : Type} {p : Program (Layer.io H) α} (hp : p.Still) :
    Ends ((p.run (answerLayer b A id)).run false) w fun r t w' => r.2 = false ∧ t = [] ∧ w'.stack = w.stack := by
  induction p generalizing w with
  | done a => exact (ends_run_pure a).2 ⟨rfl, rfl, rfl⟩
  | ask r next ih =>
    rw [Program.run_ask]
    refine (ends_run_bind _ _).2 ?_
    cases r with
    | pcb p o =>
      show Ends (lift ((monadLift (performPcb b p o) : Stack.Running H o.Reply).run false)) w _
      simp only [ends_lift, Stack.ends_run_lift, List.nil_append]
      refine (ends_performPcb p o).mono fun r w' hw => ?_
      rw [← hw]
      exact ih r (hp r)
    | note n =>
      show Ends (lift ((monadLift (note b n) : Stack.Running H Unit).run false)) w _
      simp only [ends_lift, Stack.ends_run_lift, ends_note, List.nil_append]
      exact ih () hp
    | _ => cases hp

theorem runMethod_dealloc_ends [IsEmpty H.Layer] (layer : Layer H) :
    Ends ((runMethod b A id .dealloc layer).run false) w fun _ t w' => t = [] ∧ w'.stack = w.stack := by
  cases layer with
  | plain l => exact ends_run_map ((still_ends (Plain.dealloc_still id l)).mono fun _ _ _ h => h.2)
  | secure l => exact ends_run_map ((still_ends (Secure.dealloc_still b.engine id l)).mono fun _ _ _ h => h.2)
  | passthrough name => exact ends_run_map ((still_ends (Layer.forward_dealloc_still ())).mono fun _ _ _ h => h.2)
  | custom l => exact isEmptyElim l

/-- A layer says farewell, and is not put back. -/
theorem dealloc_ends [IsEmpty H.Layer] {e : Entry H} (he : w.stack.find? id = some e) (hl : e.layer ≠ none) :
    Ends (dealloc b A id) w fun _ t w' =>
      t = [] ∧ w'.stack = w.stack.update id fun e => { e with layer := none } := by
  obtain ⟨layer, hl⟩ := Option.ne_none_iff_exists'.1 hl
  unfold dealloc
  simp only [ends_bind, ends_lift, ends_lookup, he, Option.bind_some, hl, ends_modifySlots]
  refine (runMethod_dealloc_ends layer).mono ?_
  rintro r t w' ⟨rfl, hw⟩
  refine ⟨rfl, ?_⟩
  rw [hw]
  rfl

end Recorded

namespace Slots

variable {e : Entry H}

/-- If what stood below a connection is gone as well, the others are linked upwards as before. -/
theorem shrinks_of_release (hs : s.Linked) (he : s.find? id = some e) (h : (s.release id e).Shrinks s')
    (hgone : ∀ i, e.inner = some i → s'.isAlive i = false) : s.Shrinks s' := by
  obtain ⟨hqueue, hpump, -⟩ := release_frame s id e
  obtain ⟨q, hq, hsink⟩ := h.queue
  refine ⟨fun x e' hx => ?_, h.pumping.trans hpump, q, hqueue ▸ hq, hsink⟩
  obtain ⟨e₁, he₁, ho, hc⟩ := h.kept x e' hx
  have hinner : e.inner ≠ some x := by
    intro hi
    have hdead := hgone x hi
    rw [isAlive_iff.2 ⟨e', hx⟩] at hdead
    cases hdead
  rw [hs.find?_release he] at he₁
  split at he₁
  · cases he₁
  · split at he₁
    · obtain ⟨e₀, he₀, rfl⟩ := Option.map_eq_some_iff.1 he₁
      exact ⟨e₀, he₀, ho, hc⟩
    · exact ⟨e₁, he₁, ho, hc⟩

theorem Clear.release {x : Handle} (hc : s.Clear R x) (hs : s.Linked) (he : s.find? id = some e) :
    (s.release id e).Clear R x := by
  refine fun r hr hxr => hc r hr (Relation.ReflTransGen.mono (fun y z hon => ?_) x r hxr)
  unfold On at hon ⊢
  rw [hs.inner?_release he] at hon
  split at hon
  · cases hon
  · exact hon

end Slots

namespace Recorded

open Stack Slots

variable {A : Answers H} [IsEmpty H.Layer]

omit [IsEmpty H.Layer] in
/-- A connection is freed once it is taken out of its slot and what stood below it is gone. -/
theorem Freed.of_release {e : Entry H} (ha : s.isAlive id = true) (hsh : s.Shrinks s')
    (halive : ∀ x, s'.isAlive x = s.isAlive x) (hout : s'.outstanding = s.outstanding) (hl : s'.Linked)
    (he : s'.find? id = some e) (hs : s''.Sound R) (hsh' : (s'.release id e).Shrinks s'')
    (hk : Keeps (s'.release id e) t s'') (hgone : ∀ i, e.inner = some i → s''.isAlive i = false) :
    Freed R s id (.freed id :: t) s'' := by
  have hrest : ∀ x, (s'.release id e).isAlive x = (s.isAlive x && decide (x ≠ id)) := by
    intro x
    rw [hl.isAlive_release he, halive]
  refine ⟨hs, hsh.trans (shrinks_of_release hl he hsh' hgone), ?_, fun s₀ d q hd hal ho => ?_⟩
  · rw [Bool.eq_false_iff]
    intro hid
    have hid' := hsh'.isAlive hid
    rw [hrest] at hid'
    simp at hid'
  · have hfreed : Keeps s₀ (d ++ [.freed id]) (s'.release id e) := by
      refine .freed hd ((hal id).symm.trans ha) (fun x => ?_) ?_
      · rw [hrest, hal]
      · unfold outstanding at hout ho ⊢
        rw [(release_frame s' id e).1, hout, ho]
    have hboth := hfreed.trans hk
    rwa [List.append_assoc] at hboth

/-- What stands below a connection that goes is aborted, and freed as well. -/
theorem abortBelow_ends {free : Handle → Recorded H Unit} (hA : Modest A) (hfree : Frees free) (n : Note)
    (hs : w.stack.Sound R) (hc : w.stack.Clear R id) (ha : w.stack.isAlive id = true) :
    Ends (do
      let _ ← withLayer b A free id (.op .abort)
      free id
      lift (note b n)) w fun _ t w' =>
        w'.stack.Sound R ∧ w.stack.Shrinks w'.stack ∧ Keeps w.stack t w'.stack ∧ w'.stack.isAlive id = false := by
  refine (ends_bind _ _).2 ((withLayer_ends hA hfree (by simp) (by simp [Method.isLower]) hs hc).mono ?_)
  intro _ t w₁ hhandled
  have hsh := hhandled.shrinks rfl
  have hc₁ := hc.shrinks hsh hs.toLinked hhandled.sound.toLinked
  refine (ends_bind _ _).2 ((hfree R id w₁ hhandled.sound hc₁ ((hhandled.aborted rfl).trans ha)).mono ?_)
  intro _ u w₂ hfreed
  rw [ends_lift, ends_note, List.append_nil]
  have hkeeps : Keeps w₁.stack u w₂.stack :=
    hfreed.keeps w₁.stack [] [] .freed (fun _ => rfl) (List.append_nil _).symm
  exact ⟨hfreed.sound, hsh.trans hfreed.shrinks, hhandled.keeps.trans hkeeps, hfreed.gone⟩

/-- **A connection is freed, with all that is below it.** The induction is on the number of connections that may be
below it. -/
theorem freeEntry_frees (hA : Modest A) (k : Nat) : Frees (freeEntry b A k) := by
  induction k with
  | zero =>
    intro R id w hs hc ha
    unfold freeEntry
    simp
  | succ k ih =>
    intro R id w hs hc ha
    obtain ⟨e, he⟩ := isAlive_iff.1 ha
    -- no layer at or below the connection runs, so its own is in place
    have hl : e.layer ≠ none := fun hl => hc.not_mem ((hs.home id e he).1 hl)
    unfold freeEntry
    refine (ends_bind _ _).2 ((dealloc_ends he hl).mono ?_)
    rintro _ t w₁ ⟨rfl, hw₁⟩
    generalize hs₁ : w.stack.update id (fun e => { e with layer := none }) = s₁ at hw₁
    have hsh₁ : w.stack.Shrinks s₁ := hs₁ ▸ .of_update (fun _ => rfl) fun _ => rfl
    have halive₁ : ∀ x, s₁.isAlive x = w.stack.isAlive x := fun x => hs₁ ▸ isAlive_update
    have hout₁ : s₁.outstanding = w.stack.outstanding := hs₁ ▸ rfl
    have hlinked₁ : s₁.Linked := hs₁ ▸ hs.toLinked.update (fun _ _ => rfl) fun _ _ => rfl
    obtain ⟨e₁, he₁⟩ := isAlive_iff.1 ((halive₁ id).trans ha)
    have hsound₂ : (s₁.release id e₁).Sound R := by
      subst hs₁
      exact (hs.enter ha).freed hc.not_mem he₁
    have hleaving : leaving s₁ id = [Mark.freed id] := by
      unfold leaving
      rw [halive₁, ha, if_pos rfl]
    simp only [ends_bind, ends_lift, ends_getSlots, ends_record, ends_lookup, hw₁, he₁, hleaving, ends_modifySlots]
    cases hi : e₁.inner with
    | none =>
      have hfreed : Freed R w.stack id [.freed id] (s₁.release id e₁) := by
        refine .of_release ha hsh₁ halive₁ hout₁ hlinked₁ he₁ hsound₂ (.refl _) (.refl _) fun i hi' => ?_
        rw [hi] at hi'
        cases hi'
      cases ho : e₁.outer <;> simpa [release, letGo, bereave, ho, hi] using hfreed
    | some i =>
      obtain ⟨hne, -, -, hout⟩ := hlinked₁.find?_below he₁ hi
      have hon : s₁.On id i := (hlinked₁.agree id i).2 hout
      have hclear₁ : s₁.Clear R i := (hc.shrinks hsh₁ hs.toLinked hlinked₁).down hon
      have halive₂ : (s₁.release id e₁).isAlive i = true := by
        obtain ⟨ei, hei, -⟩ := outer?_eq_some.1 hout
        rw [hlinked₁.isAlive_release he₁, isAlive_iff.2 ⟨ei, hei⟩]
        simpa using hne
      -- what is left once the slots are rid of it: the connection below is aborted, and freed by induction
      have hdown : ∀ w₂ : World H, w₂.stack = s₁.release id e₁ → Ends (do
          let _ ← withLayer b A (freeEntry b A k) i (.op .abort)
          freeEntry b A k i
          lift (note b (.trace "connection freed" [id.field, ("layer", e₁.name)]))) w₂ fun _ u w' =>
            Freed R w.stack id (.freed id :: u) w'.stack := by
        intro w₂ hw₂
        rw [← hw₂] at hsound₂ halive₂
        refine (abortBelow_ends hA ih _ hsound₂ (hw₂ ▸ hclear₁.release hlinked₁ he₁) halive₂).mono ?_
        rintro _ u w₃ ⟨hs₃, hsh₃, hk₃, hgone⟩
        rw [hw₂] at hsh₃ hk₃
        refine .of_release ha hsh₁ halive₁ hout₁ hlinked₁ he₁ hs₃ hsh₃ hk₃ fun j hj => ?_
        cases hi.symm.trans hj
        exact hgone
      -- the connection below still refers to the one that goes, whether there is one above or not
      have hstill := hlinked₁.outer?_letGo he₁ hi
      cases ho : e₁.outer with
      | none | some =>
        simp only [ho, letGo] at hstill
        simp only [ends_bind, ends_lift, ends_getSlots, ends_modifySlots]
        rw [if_pos hstill]
        refine (ends_bind _ _).2 ?_
        rw [ends_lift, ends_modifySlots]
        refine hdown _ ?_
        simp only [release, letGo, bereave, ho, hi, hstill, if_true]

end Recorded

end Conduit
