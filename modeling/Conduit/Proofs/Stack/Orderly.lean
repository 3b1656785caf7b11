import Conduit.Proofs.Stack.Working

/-!
# The stack between requests

No layer runs when an application is asked or asks, and what it leaves is in order whatever it does.

* `Slots.Idle`: the slots between two requests of an application.
* `Recorded.Carried`: what a request leaves of the slots and of the record.
* `Recorded.exec_orderly`: every request leaves the slots in order.
* `Recorded.run_ends`: so does everything that an application does.
-/

namespace Conduit

open Exec Stack Slots

variable {H : Host} {b : Behaviour H} {s s' s'' : Slots H} {t u : List (Mark H)} {R : List Handle} {id : Handle}
  {w : World H}

/-- The slots between two requests of an application: no layer runs, and unless events are being delivered, none
waits. -/
structure Slots.Idle (s : Slots H) : Prop where
  sound : s.Sound []
  settled : s.pumping = false → s.queue = []

namespace Recorded

/-- What a request leaves of the slots and of the record, while the layers of `R` run. -/
structure Carried (R : List Handle) (s : Slots H) (t : List (Mark H)) (s' : Slots H) : Prop where
  sound : s'.Sound R
  pumping : s'.pumping = s.pumping
  keeps : Keeps s t s'
  shrinks : R ≠ [] → s.Shrinks s'
  settled : R = [] → s.pumping = false → s'.queue = []

theorem Carried.idle (h : Carried [] s t s') : s'.Idle := ⟨h.sound, fun hp => h.settled rfl (h.pumping ▸ hp)⟩

theorem Carried.refl (h : s.Idle) : Carried [] s [] s :=
  ⟨h.sound, rfl, .refl s, fun hR => absurd rfl hR, fun _ => h.settled⟩

/-- A request goes on from what was done before. -/
theorem Carried.after (hp : s'.pumping = s.pumping) (hk : Keeps s t s') (hsh : R ≠ [] → s.Shrinks s')
    (h : Carried R s' u s'') : Carried R s (t ++ u) s'' :=
  ⟨h.sound, h.pumping.trans hp, hk.trans h.keeps, fun hR => (hsh hR).trans (h.shrinks hR),
    fun hR hp' => h.settled hR (hp.trans hp')⟩

theorem Carried.trans (h : Carried [] s t s') (h' : Carried [] s' u s'') : Carried [] s (t ++ u) s'' :=
  .after h.pumping h.keeps (fun hR => absurd rfl hR) h'

/-- How requests are answered: those of a layer as it may expect, and those of an application so that the slots are left
in order. -/
structure Orderly (A : Answers H) : Prop extends Modest A where
  top : ∀ r w, w.stack.Idle → Ends (A r) w fun _ t w' => Carried [] w.stack t w'.stack

variable {A : Answers H} {free : Handle → Recorded H Unit}

/-- Whatever an application does, it leaves the slots in order. -/
theorem program_ends {α : Type} (hA : Orderly A) (p : Act H α) (hi : w.stack.Idle) :
    Ends (p.run A) w fun _ t w' => Carried [] w.stack t w'.stack := by
  induction p generalizing w with
  | done a => exact (ends_pure a).2 (.refl hi)
  | ask r next ih =>
    refine (ends_bind _ _).2 ((hA.top r w hi).mono fun x t w' h => ?_)
    exact (ih x h.idle).mono fun _ u w'' h' => h.trans h'

/-! ## Events -/

/-- Something happens while events are being delivered. -/
structure Moved (s : Slots H) (t : List (Mark H)) (s' : Slots H) : Prop where
  sound : s'.Sound []
  pumping : s'.pumping = s.pumping
  keeps : Keeps s t s'

theorem Moved.refl (h : s.Sound []) : Moved s [] s := ⟨h, rfl, .refl s⟩

theorem Moved.trans (h : Moved s t s') (h' : Moved s' u s'') : Moved s (t ++ u) s'' :=
  ⟨h'.sound, h'.pumping.trans h.pumping, h.keeps.trans h'.keeps⟩

theorem Carried.moved (h : Carried [] s t s') : Moved s t s' := ⟨h.sound, h.pumping, h.keeps⟩

theorem Handled.moved {m : Method} (h : Handled m id [] s t s') : Moved s t s' := ⟨h.sound, h.pumping, h.keeps⟩

/-- While events are being delivered, others may wait. -/
theorem idle_of_pumping (hs : s.Sound []) (hp : s.pumping = true) : s.Idle :=
  ⟨hs, fun hf => absurd (hp.symm.trans hf) (by simp)⟩

theorem Moved.of_update {f : Entry H → Entry H} (hs : s.Sound []) (hi : ∀ e, (f e).inner = e.inner)
    (ho : ∀ e, (f e).outer = e.outer) (hl : ∀ e, (f e).layer = e.layer) : Moved s [] (s.update id f) :=
  ⟨hs.update hi ho hl, rfl, .of_same (fun _ => isAlive_update) rfl⟩

section

variable [IsEmpty H.Layer] (hA : Orderly A) (hfree : Frees free)
include hA hfree

theorem settleRecv_ends (source : Handle) (v : Outcome) (hs : w.stack.Sound []) :
    Ends (settleRecv b A free source v) w fun _ t w' => Moved w.stack t w'.stack := by
  unfold settleRecv
  refine (ends_bind _ _).2 ((withLayer_ends hA.toModest hfree (by simp) (fun _ => rfl) hs (clear_nil _ _)).mono ?_)
  intro _ t w' h
  rw [ends_pure, List.append_nil]
  exact h.moved

theorem deliverToLayer_ends (outer source : Handle) (e : Event) (hs : w.stack.Sound [])
    (hp : w.stack.pumping = true) :
    Ends (deliverToLayer b A free outer source e) w fun _ t w' => Moved w.stack t w'.stack := by
  unfold deliverToLayer
  refine (ends_bind _ _).2 ((withLayer_ends hA.toModest hfree (by simp) (fun _ => rfl) hs (clear_nil _ _)).mono ?_)
  intro v t w' h
  have hmoved := h.moved
  have hp' := h.pumping.trans hp
  -- whatever the layer above answers
  generalize (v.bind fun r => r : Outcome) = verdict
  dsimp only
  split
  · refine (ends_bind _ _).2 ?_
    rw [ends_lift, ends_note]
    refine (hA.top _ _ ?_).mono fun _ u w'' h' => ?_
    · exact idle_of_pumping hmoved.sound hp'
    · exact hmoved.trans h'.moved
  · exact (settleRecv_ends hA hfree _ _ hmoved.sound).mono fun _ u w'' h' => hmoved.trans h'
  · rw [ends_pure, List.append_nil]
    exact hmoved

omit [IsEmpty H.Layer] hfree in
theorem callback_ends (me : Handle) (k : CallbackKind) (call : Call) {absent : Recorded H Outcome}
    (hs : w.stack.Sound []) (hp : w.stack.pumping = true)
    (habsent : Ends absent w fun _ t w' => Moved w.stack t w'.stack) :
    Ends (callback b A me k call absent) w fun _ t w' => Moved w.stack t w'.stack := by
  unfold callback
  simp only [ends_bind, ends_lift, ends_lookup]
  cases hf : w.stack.find? me with
  | none => exact habsent
  | some e =>
    cases hk : e.callbacks.get k with
    | none =>
      simp only [hk]
      exact habsent
    | some code =>
      -- the callback is away while it runs, and may do whatever an application may
      have htaken : Moved w.stack [] (w.stack.takeCallback me k) :=
        .of_update hs (fun _ => rfl) (fun _ => rfl) fun _ => rfl
      have halive : (w.stack.takeCallback me k).isAlive me = true := isAlive_update.trans (isAlive_iff.2 ⟨e, hf⟩)
      have hcalled : Moved w.stack [.called me true call] (w.stack.takeCallback me k) :=
        ⟨htaken.sound, htaken.pumping, by
          have hkeeps := Keeps.called call halive
          rw [halive] at hkeeps
          exact htaken.keeps.trans hkeeps⟩
      simp only [hk, ends_bind, ends_lift, ends_modifySlots, ends_getSlots, ends_record, halive]
      have hidle : (w.stack.takeCallback me k).Idle := idle_of_pumping htaken.sound hp
      refine (program_ends hA (w := { w with stack := w.stack.takeCallback me k }) _ hidle).mono ?_
      intro r t w' h
      have hrest : Moved w'.stack [] (w'.stack.restoreCallback me k e.epoch r.1) := by
        refine .of_update h.sound (fun e => ?_) (fun e => ?_) (fun e => ?_) <;> split <;> rfl
      have hmoved := hcalled.trans (h.moved.trans hrest)
      simpa using hmoved

theorem deliverToApp_ends (me : Handle) (e : Event) (hs : w.stack.Sound []) (hp : w.stack.pumping = true) :
    Ends (deliverToApp b A free me e) w fun _ t w' => Moved w.stack t w'.stack := by
  have hcall : ∀ (k : CallbackKind) (call : Call) (v : Outcome),
      Ends (do let _ ← callback b A me k call (pure v)) w fun _ t w' => Moved w.stack t w'.stack := by
    intro k call v
    refine (ends_bind _ _).2 ((callback_ends hA me k call hs hp ((ends_pure v).2 (.refl hs))).mono ?_)
    intro _ t w' h
    rw [ends_pure, List.append_nil]
    exact h
  cases e with
  | accept new =>
    refine (ends_bind _ _).2 ((callback_ends hA me _ _ hs hp ((ends_pure _).2 (.refl hs))).mono ?_)
    intro v t w' h
    cases v with
    | ok _ =>
      rw [ends_pure, List.append_nil]
      exact h
    | error f =>
      refine (ends_bind _ _).2 ?_
      rw [ends_lift, ends_note]
      refine (hA.top _ _ ?_).mono fun _ u w'' h' => ?_
      · exact idle_of_pumping h.sound (h.pumping.trans hp)
      · exact h.trans h'.moved
  | connected r => exact hcall _ _ _
  | recv data =>
    refine (ends_bind _ _).2 ((callback_ends hA me _ _ hs hp ?_).mono ?_)
    · refine (ends_bind _ _).2 ?_
      rw [ends_lift, ends_note]
      refine (ends_bind _ _).2 ((hA.top _ _ ?_).mono fun _ t w' h => ?_)
      · exact idle_of_pumping hs hp
      · rw [ends_pure, List.append_nil]
        exact h.moved
    · intro v t w' h
      exact (settleRecv_ends hA hfree me v h.sound).mono fun _ u w'' h' => h.trans h'
  | eof => exact hcall _ _ _
  | sent len => exact hcall _ _ _
  | poll => exact hcall _ _ _
  | error f =>
    refine (ends_pure _).2 (.refl hs)

/-- An event that has been taken from the queue is delivered. -/
theorem deliver_ends {q : Queued H} (hs : w.stack.Sound []) (hp : w.stack.pumping = true)
    (ha : ∀ x, w.stack.isAlive x = s.isAlive x) (hpump : w.stack.pumping = s.pumping)
    (ho : s.outstanding = q.owed.toList ++ w.stack.outstanding) :
    Ends (deliver b A free q) w fun _ t w' => Moved s t w'.stack := by
  -- where nobody is owed anything, the delivery is all that happens
  have hdeliver : ∀ {x : Recorded H Unit}, q.owed = none →
      (Ends x w fun _ t w' => Moved w.stack t w'.stack) → Ends x w fun _ t w' => Moved s t w'.stack := by
    intro x howed hx
    rw [howed, Option.toList_none, List.nil_append] at ho
    exact hx.mono fun _ t w' h => ⟨h.sound, h.pumping.trans hpump, h.keeps.before ha ho.symm⟩
  obtain ⟨source, event, route⟩ := q
  cases route with
  | sink code =>
    cases event with
    | error reason =>
      cases code with
      | none =>
        refine hdeliver rfl ((ends_bind _ _).2 ?_)
        rw [ends_lift, ends_note, ends_pure]
        exact .refl hs
      | some code =>
        -- the one delivery by which something owed is paid
        have htold : Moved s [.told source (w.stack.isAlive source) reason code] w.stack :=
          ⟨hs, hpump, Keeps.told ha ho⟩
        unfold deliver
        simp only [ends_bind, ends_lift, ends_note, ends_getSlots, ends_record, ends_pure]
        refine (program_ends hA _ ?_).mono fun r t w' h => ?_
        · exact idle_of_pumping hs hp
        · have hmoved := htold.trans h.moved
          simpa using hmoved
    | _ => exact hdeliver rfl ((ends_pure _).2 (.refl hs))
  | layer outer =>
    have howed : (⟨source, event, .layer outer⟩ : Queued H).owed = none := by cases event <;> rfl
    exact hdeliver howed (deliverToLayer_ends hA hfree outer source event hs hp)
  | resolve =>
    have howed : (⟨source, event, .resolve⟩ : Queued H).owed = none := by cases event <;> rfl
    refine hdeliver howed ?_
    unfold deliver
    simp only [ends_bind, ends_lift, ends_lookup]
    cases hf : w.stack.find? source with
    | none =>
      simp only [ends_lift, ends_note]
      exact .refl hs
    | some e =>
      cases ho : e.outer with
      | none =>
        simp only [ho]
        exact deliverToApp_ends hA hfree source event hs hp
      | some outer =>
        simp only [ho]
        exact deliverToLayer_ends hA hfree outer source event hs hp

theorem drain_ends (n : Nat) (hs : w.stack.Sound []) (hp : w.stack.pumping = true) :
    Ends (drain b A free n) w fun _ t w' => Moved w.stack t w'.stack ∧ w'.stack.queue = [] := by
  induction n generalizing w with
  | zero =>
    unfold drain
    simp
  | succ n ih =>
    unfold drain
    simp only [ends_bind, ends_lift, ends_getSlots]
    cases hq : w.stack.queue with
    | nil => exact (ends_pure _).2 ⟨.refl hs, hq⟩
    | cons q rest =>
      simp only [ends_bind, ends_lift, ends_modifySlots]
      -- what is owed to the first event is paid by delivering it
      have hout : w.stack.outstanding = q.owed.toList ++ ({ w.stack with queue := rest } : Slots H).outstanding := by
        unfold outstanding
        rw [hq]
        cases ho : q.owed <;> simp [ho]
      refine (deliver_ends (w := { w with stack := { w.stack with queue := rest } }) (s := w.stack) hA hfree
        (hs.of_same rfl rfl rfl rfl) hp (fun _ => rfl) rfl hout).mono fun _ t w₁ h => ?_
      refine (ih h.sound (h.pumping.trans hp)).mono fun _ u w₂ h' => ?_
      exact ⟨h.trans h'.1, h'.2⟩

/-- No event waits once they have been delivered. While a layer runs, they wait. -/
theorem pump_ends (n : Nat) (hs : w.stack.Sound R) :
    Ends (pump b A free n) w fun _ t w' => Carried R w.stack t w'.stack := by
  unfold pump
  simp only [ends_bind, ends_lift, ends_getSlots]
  split
  · rename_i hbusy
    -- a layer runs, or events are being delivered already: whoever does that will come to these
    refine (ends_pure _).2 ⟨hs, rfl, .refl _, fun _ => .refl _, fun hR hp => ?_⟩
    rw [hs.depth, hR, hp] at hbusy
    simp at hbusy
  · rename_i hfree'
    rw [Bool.or_eq_true, not_or, decide_eq_true_eq, Bool.not_eq_true, hs.depth] at hfree'
    obtain ⟨hlen, hp⟩ := hfree'
    obtain rfl : R = [] := List.length_eq_zero_iff.1 (Nat.eq_zero_of_not_pos hlen)
    simp only [ends_bind, ends_lift, ends_modifySlots]
    refine (drain_ends (w := { w with stack := { w.stack with pumping := true } }) hA hfree n
      (hs.of_same rfl rfl rfl rfl) rfl).mono fun _ t w' h => ?_
    obtain ⟨hmoved, hqueue⟩ := h
    have hbegin : Keeps w.stack [] { w.stack with pumping := true } := .of_same (fun _ => rfl) rfl
    have hend : Keeps w'.stack [] { w'.stack with pumping := false } := .of_same (fun _ => rfl) rfl
    rw [List.nil_append]
    refine ⟨hmoved.sound.of_same rfl rfl rfl rfl, hp.symm, ?_, fun hR => absurd rfl hR, fun _ _ => hqueue⟩
    exact hbegin.trans (hmoved.keeps.trans hend)

/-! ## Operations -/

theorem call_ends (n : Nat) (o : Op) (hlow : R ≠ [] → (Method.op o).isLower = false) (hs : w.stack.Sound R)
    (hc : w.stack.Clear R id) :
    Ends (call b A free n id o) w fun _ t w' => Carried R w.stack t w'.stack := by
  have htop : (Method.op o).isLower = true → R = [] := by
    intro ho
    by_contra hR
    rw [hlow hR] at ho
    cases ho
  unfold call
  refine (ends_bind _ _).2 ((withLayer_ends hA.toModest hfree (by simp) htop hs hc).mono ?_)
  intro r t w₁ h
  refine (ends_bind _ _).2 ((pump_ends hA hfree n h.sound).mono ?_)
  intro _ u w₂ h'
  have hcarried : Carried R w.stack (t ++ u) w₂.stack := .after h.pumping h.keeps (fun hR => h.shrinks (hlow hR)) h'
  cases r <;> simpa using hcarried

omit [IsEmpty H.Layer] hA hfree in
/-- A connection that is to be aborted comes to its end with the callback that it has then. -/
theorem keeps_aborting (hsh : s.Shrinks s') (ha : s'.isAlive id = true) (hk : Keeps s t s'')
    (hm : ∀ m ∈ ending s' id (.error .aborted), m ∈ t) : Keeps s (aborting s id ++ t) s'' := by
  obtain ⟨e', he'⟩ := isAlive_iff.1 ha
  obtain ⟨e, he, ho, hc⟩ := hsh.kept id e' he'
  simp only [ending, he', ho, hc] at hm
  simp only [aborting, he]
  split
  · rename_i hnone
    rw [if_pos hnone] at hm
    exact hk.aborted (hm _ List.mem_cons_self)
  · exact hk

omit [IsEmpty H.Layer] hA hfree in
/-- The end of a connection with one above it waits beside the others. -/
theorem shrinks_ended (hsh : s.Shrinks s') (ha : s'.isAlive id = true)
    (hup : ∀ e, s.find? id = some e → e.outer ≠ none) : s'.Shrinks (s'.enqueue id (.error .aborted)) := by
  obtain ⟨e', he'⟩ := isAlive_iff.1 ha
  obtain ⟨e, he, houter, -⟩ := hsh.kept id e' he'
  obtain ⟨outer, hsome⟩ := Option.ne_none_iff_exists'.1 (hup e he)
  exact shrinks_enqueue_error he' (houter.trans hsome) _

omit [IsEmpty H.Layer] hA hfree in
/-- A connection that is to be aborted is clear of the layers at work still when its end waits. -/
theorem clear_ended (hs : s.Sound R) (hc : s.Clear R id) (hsh : s.Shrinks s') (hs' : s'.Sound R)
    (ha : s'.isAlive id = true) (hup : R ≠ [] → ∀ e, s.find? id = some e → e.outer ≠ none) :
    (s'.enqueue id (.error .aborted)).Clear R id := by
  by_cases hR : R = []
  · rw [hR]
    exact clear_nil _ _
  · exact hc.shrinks (hsh.trans (shrinks_ended hsh ha (hup hR))) hs.toLinked (hs'.enqueue id _).toLinked

/-- A connection is aborted, and comes to its end. -/
theorem abort_ends (n : Nat) (hs : w.stack.Sound R) (hc : w.stack.Clear R id)
    (hup : R ≠ [] → ∀ e, w.stack.find? id = some e → e.outer ≠ none)
    (hidle : R = [] → w.stack.pumping = false → w.stack.queue = []) :
    Ends (operate b A free n id .abort) w fun _ t w' => Carried R w.stack t w'.stack := by
  unfold operate
  simp only [ends_bind, ends_lift, ends_getSlots]
  cases ha : w.stack.isAlive id with
  | false => exact (ends_pure _).2 ⟨hs, rfl, .refl _, fun _ => .refl _, hidle⟩
  | true =>
    simp only [if_true, ends_bind, ends_lift, ends_getSlots, ends_record, ends_note]
    have hlow : (Method.op .abort).isLower = true → R = [] := fun hf => absurd hf Bool.false_ne_true
    generalize b.note (.debug "abort requested" [id.field]) w.memory = m
    refine (withLayer_ends (w := { w with memory := m }) hA.toModest hfree (by simp) hlow hs hc).mono ?_
    intro _ t w₁ h
    have hsh₁ := h.shrinks rfl
    have ha₁ := (h.aborted rfl).trans ha
    simp only [ha₁, if_true, ends_bind, enqueue, ends_lift, ends_getSlots, ends_record, Stack.enqueue, ends_modifySlots]
    -- its layer has given up, but left the connection there; now it comes to its end
    obtain ⟨q, hd, ho, hal, hp⟩ := departs_error w₁.stack id .aborted
    have hs₂ := h.sound.enqueue id (.error .aborted)
    have hc₂ := clear_ended hs hc hsh₁ h.sound ha₁ hup
    refine (hfree R id { w₁ with stack := w₁.stack.enqueue id (.error .aborted) } hs₂ hc₂ ((hal id).trans ha₁)).mono ?_
    intro _ u w₂ hfreed
    refine (pump_ends hA hfree n hfreed.sound).mono ?_
    intro _ v w₃ h'
    have hend : Keeps w₁.stack (ending w₁.stack id (.error .aborted) ++ u) w₂.stack :=
      hfreed.keeps w₁.stack _ q hd hal ho
    have hkeeps := h.keeps.trans (hend.trans h'.keeps)
    refine ⟨h'.sound, ?_, ?_, fun hR => ?_, fun hR hp₀ => h'.settled hR ?_⟩
    · exact h'.pumping.trans (hfreed.shrinks.pumping.trans (hp.trans hsh₁.pumping))
    · have hall := keeps_aborting hsh₁ ha₁ hkeeps fun m hm => by simp [hm]
      simpa using hall
    · exact hsh₁.trans ((shrinks_ended hsh₁ ha₁ (hup hR)).trans (hfreed.shrinks.trans (h'.shrinks hR)))
    · exact (hfreed.shrinks.pumping.trans (hp.trans hsh₁.pumping)).trans hp₀

/-- **An operation on a connection**, while the layers of `R` run, or none. -/
theorem operate_ends (n : Nat) (o : Op) (hlow : R ≠ [] → (Method.op o).isLower = false) (hs : w.stack.Sound R)
    (hc : w.stack.Clear R id) (hup : R ≠ [] → ∀ e, w.stack.find? id = some e → e.outer ≠ none)
    (hidle : R = [] → w.stack.pumping = false → w.stack.queue = []) :
    Ends (operate b A free n id o) w fun _ t w' => Carried R w.stack t w'.stack := by
  cases o with
  | abort => exact abort_ends hA hfree n hs hc hup hidle
  | setPoll interval =>
    unfold operate
    simp only [ends_bind, ends_lift, ends_getSlots]
    cases ha : w.stack.isAlive id with
    | false => exact (ends_pure _).2 ⟨hs, rfl, .refl _, fun _ => .refl _, hidle⟩
    | true =>
      simp only [if_true, ends_bind, ends_lift, ends_modifySlots]
      have hs₁ : (w.stack.update id fun e => { e with pollInterval := interval }).Sound R :=
        hs.update (fun _ => rfl) (fun _ => rfl) fun _ => rfl
      have hsh₁ : w.stack.Shrinks (w.stack.update id fun e => { e with pollInterval := interval }) :=
        .of_update (fun _ => rfl) fun _ => rfl
      have hk₁ : Keeps w.stack [] (w.stack.update id fun e => { e with pollInterval := interval }) :=
        .of_same (fun _ => isAlive_update) rfl
      generalize w.stack.update id (fun e => { e with pollInterval := interval }) = s₁ at hs₁ hsh₁ hk₁ ⊢
      have hc₁ := hc.shrinks hsh₁ hs.toLinked hs₁.toLinked
      refine (call_ends (w := { w with stack := s₁ }) hA hfree n (.setPoll interval) (fun _ => rfl) hs₁ hc₁).mono ?_
      intro _ t w' h
      exact .after hsh₁.pumping hk₁ (fun _ => hsh₁) h
  | lower e =>
    unfold operate
    refine (ends_bind _ _).2 ?_
    rw [ends_lift, ends_note]
    exact call_ends hA hfree n (.lower e) hlow hs hc
  | _ => exact call_ends hA hfree n _ hlow hs hc

end

end Recorded

end Conduit
