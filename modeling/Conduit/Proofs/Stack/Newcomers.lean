import Conduit.Proofs.Stack.Diary
import Conduit.Proofs.Stack.Discards
import Conduit.Proofs.Stack.InTurn

/-!
# Newcomers

A connection that a TCP engine has accepted is announced to the listener. From there the news goes up, one queued event
for each layer above, and each of them may put a layer of its own on the connection; in the end the application is told
of it. Callbacks may do whatever they like meanwhile: the listener may be closed, aborted or replaced while the news is on
its way.

* `Stack.deliver_patient`: while an event is delivered, those that wait go on waiting.
* `Stack.Fate`, `Stack.Disposed`: what becomes of a newcomer with one delivery, and with a row of them.
* `Stack.drain_disposes`: **no news of a newcomer is left over**: it was handed to the application, or is gone, or
  whoever was to hear of it had gone.
* `Stack.Received`: how a TCP engine is answered that reports a newcomer.
* `Stack.newcomers`: **what becomes of every newcomer.**
-/

namespace Conduit

open Exec

variable {H : Host} {b : Behaviour H}

/-! ## Events that wait -/

/-- Events are being delivered, and those of `l` wait, before all that has come since. -/
structure Slots.Awaits (l : List (Queued H)) (s : Slots H) : Prop where
  pumping : s.pumping = true
  waits : l <+: s.queue

/-- A computation that leaves the events alone that wait while others are being delivered. -/
def Exec.Patient {α : Type} (x : Exec H α) : Prop := ∀ l, Upholds (fun w => w.stack.Awaits l) x

theorem Exec.Patient.bind {α β : Type} {x : Exec H α} {f : α → Exec H β} (hx : Patient x) (hf : ∀ a, Patient (f a)) :
    Patient (x >>= f) := fun l => (hx l).bind fun a => hf a l

/-- A log that may be that of a pump at rest and of one that waits for a callback has nothing in it but events that
come. -/
theorem Traced.Passes.only_comes {c c' d d' : Pace H} {t : List (Incident H)} (h : Passes Pace.Step c t d)
    (h' : Passes Pace.Step c' t d') (hrest : c.stage = .rest) (hcalling : c'.stage = .calling) :
    c.waiting <+: d.waiting := by
  induction h generalizing c' with
  | nil c => exact List.prefix_refl _
  | cons hi _ ih =>
    cases h' with
    | cons hi' h' =>
      -- of each incident, one of the two observers says that nothing but an arrival is allowed
      cases hi with
      | queued q l st =>
        cases hi' with
        | queued => exact (List.prefix_append _ _).trans (ih h' hrest hcalling)
        | aside hq => cases hq
      | began l =>
        cases hi' with
        | began => cases hcalling
        | aside hq => cases hq
      | aside ha c =>
        cases hi' with
        | aside => exact ih h' hrest hcalling
        | _ => cases ha
      | _ => cases hrest

namespace Stack

open Slots

variable {w w' : World H} {k n : Nat} {src new : Handle} {e : Entry H} {α β : Type}

theorem patient_pure (a : α) : Patient (pure a : Exec H α) := fun _ => upholds_pure a

/-- Whoever neither adds events nor delivers any is patient. -/
theorem patient_of_aloof {x : Exec H α} (h : Traced.Aloof x) : Patient x := by
  intro l w hw
  refine (h w).mono fun _ w' hw' => ⟨hw'.2.trans hw.pumping, ?_⟩
  rw [hw'.1]
  exact hw.waits

/-- What a pump allows at rest and while a callback runs, it does not notice. -/
theorem patient_of_paced {x : Traced H α} {y : Exec H α} (h : ∀ st, Traced.Paced st x) (hxy : Traced.Erases x y) :
    Patient y := by
  intro l w hw
  rw [← show x.erase = y from hxy]
  intro a w' hrun
  obtain ⟨c, hlog, hend⟩ := h .rest w fun hc => absurd rfl hc
  obtain ⟨c', hlog', -⟩ := h .calling w fun _ => hw.pumping
  obtain ⟨rfl, hp⟩ := hend a w' hrun
  exact ⟨hp.trans hw.pumping, hw.waits.trans (hlog.only_comes hlog' rfl rfl)⟩

theorem exec_patient (k : Nat) (r : Req H) : Patient (exec b k r) :=
  patient_of_paced (fun st => Traced.exec_paced k st r) (Traced.exec_erases k r)

theorem withLayer_patient (k : Nat) (id : Handle) (m : Method) :
    Patient (withLayer b (exec b k) (freeEntry b (exec b k) k) id m) :=
  patient_of_paced
    (fun st => Traced.withLayer_paced (fun r => Traced.exec_paced k st r)
      (fun id => Traced.freeEntry_paced (fun r => Traced.exec_paced k st r) k id) id m)
    (Traced.withLayer_erases (fun r => Traced.exec_erases k r)
      (fun id => Traced.freeEntry_erases (fun r => Traced.exec_erases k r) k id) id m)

theorem program_patient (p : Act H α) : Patient (p.run (exec b k)) := fun l => by
  induction p with
  | done a => exact upholds_pure a
  | ask r next ih => exact (exec_patient k r l).bind ih

theorem callback_patient (id : Handle) (kind : CallbackKind) (c : Call) {absent : Exec H Outcome} (h : Patient absent) :
    Patient (callback b (exec b k) id kind c absent) := by
  refine Patient.bind (patient_of_aloof (Traced.aloof_lookup id)) fun e => ?_
  cases e with
  | none => exact h
  | some e =>
    cases hc : e.callbacks.get kind with
    | none =>
      simp only [hc]
      exact h
    | some code =>
      simp only [hc]
      have htake : Patient (modifySlots fun s : Slots H => s.takeCallback id kind) :=
        patient_of_aloof (Traced.aloof_modifySlots (fun _ => rfl) fun _ => rfl)
      refine htake.bind fun _ => (program_patient _).bind fun r => ?_
      have hback : Patient (modifySlots fun s : Slots H => s.restoreCallback id kind e.epoch r.1) :=
        patient_of_aloof (Traced.aloof_modifySlots (fun _ => rfl) fun _ => rfl)
      exact hback.bind fun _ => patient_pure _

theorem settleRecv_patient (source : Handle) (v : Outcome) :
    Patient (settleRecv b (exec b k) (freeEntry b (exec b k) k) source v) :=
  (withLayer_patient k source _).bind fun _ => patient_pure _

theorem patient_note (n : Note) : Patient (note b n) := patient_of_aloof (Traced.aloof_note n)

theorem deliverToLayer_patient (outer source : Handle) (ev : Event) :
    Patient (deliverToLayer b (exec b k) (freeEntry b (exec b k) k) outer source ev) := by
  refine (withLayer_patient k outer _).bind fun v => ?_
  generalize (v.bind id : Outcome) = verdict
  cases ev with
  | accept new =>
    cases verdict with
    | ok u => exact patient_pure _
    | error f => exact (patient_note _).bind fun _ => exec_patient k _
  | recv d => exact settleRecv_patient source verdict
  | _ => exact patient_pure _

theorem deliverToApp_patient (me : Handle) (ev : Event) :
    Patient (deliverToApp b (exec b k) (freeEntry b (exec b k) k) me ev) := by
  cases ev with
  | accept new =>
    refine (callback_patient me _ _ (patient_pure _)).bind fun v => ?_
    cases v with
    | ok u => exact patient_pure _
    | error f => exact (patient_note _).bind fun _ => exec_patient k _
  | recv data =>
    refine (callback_patient me _ _ ?_).bind fun v => settleRecv_patient me v
    exact (patient_note _).bind fun _ => (exec_patient k _).bind fun _ => patient_pure _
  | error f => exact patient_pure _
  | _ => exact (callback_patient me _ _ (patient_pure _)).bind fun _ => patient_pure _

/-- **While an event is delivered, those that wait go on waiting**, and others come after them. -/
theorem deliver_patient (q : Queued H) : Patient (deliver b (exec b k) (freeEntry b (exec b k) k) q) := by
  obtain ⟨source, ev, route⟩ := q
  cases route with
  | sink code =>
    cases ev with
    | error reason =>
      refine (patient_note _).bind fun _ => ?_
      cases code with
      | none => exact patient_pure _
      | some code => exact (program_patient _).bind fun _ => patient_pure _
    | _ => exact patient_pure _
  | layer outer => exact deliverToLayer_patient outer source ev
  | resolve =>
    refine Patient.bind (patient_of_aloof (Traced.aloof_lookup source)) fun e => ?_
    cases e with
    | none => exact patient_note _
    | some e =>
      cases ho : e.outer with
      | none =>
        simp only [ho]
        exact deliverToApp_patient source ev
      | some outer =>
        simp only [ho]
        exact deliverToLayer_patient outer source ev

/-! ## News that goes up -/

/-- The news of a newcomer, on its way up from `src`. -/
def news (src new : Handle) : Queued H := ⟨src, .accept new, .resolve⟩

/-- `n` is the newcomer, or a connection that was put on it. -/
def Covers (s : Slots H) (n new : Handle) : Prop := n = new ∨ s.inner? n = some new

/-- The layer of `src` has let the news of a newcomer wait for the one above. -/
structure Announced (src new : Handle) (s s' : Slots H) : Prop where
  event : ∃ n, Covers s' n new ∧ s'.queue = s.queue ++ [news src n]
  kept : ∀ x, s.isAlive x = true → s'.isAlive x = true

variable {s s' s₁ : Slots H} {layer : Layer H}

/-- Whatever layer is put back, the news waits. -/
theorem Announced.back (h : Announced src new (s.away src) s') (layer : Layer H) :
    Announced src new s (s'.back src layer) := by
  obtain ⟨⟨n, hcovers, hqueue⟩, hkept⟩ := h
  have hinner : (s'.back src layer).inner? n = s'.inner? n :=
    inner?_update (s := ({ s' with depth := s'.depth - 1 } : Slots H)) fun _ _ => rfl
  refine ⟨⟨n, hcovers.imp_right fun hi => hinner.trans hi, hqueue⟩, fun x hx => ?_⟩
  exact isAlive_update.trans (hkept x (isAlive_update.trans hx))

/-- A new TLS layer is made without anybody noticing. -/
theorem create_ends {σ : Type} {l : σ} {flag : Bool} {A : Answers H} {me : Handle} (c : Tls.Config H.Source) :
    Ends ((((Tls.Layer.create Layer.Act.newEngine c none : Layer.Act H σ _).run l).run (answerLayer b A me)).run flag) w
      fun r w' => r.1.2 = l ∧ r.2 = flag ∧ w'.stack = w.stack ∧ w'.net = w.net := by
  have hnew : ∀ (name : Option Tls.ServerName) (g : H.Engine → Tls.Layer H.Source H.Engine),
      Ends (((((do pure ((← Layer.Act.newEngine c name).map g) : Layer.Act H σ _)).run l).run
        (answerLayer b A me)).run flag) w fun r w' => r.1.2 = l ∧ r.2 = flag ∧ w'.stack = w.stack ∧ w'.net = w.net := by
    intro name g
    rw [ends_act_bind]
    refine (ends_act_request _).2 ?_
    simp only [answerLayer, ends_run_lift, newEngine, ends_bind, ends_get, ends_modify, ends_pure, ends_act_pure,
      and_self]
  have hpure : ∀ x : Except Fault (Tls.Layer H.Source H.Engine), Ends ((((pure x : Layer.Act H σ _).run l).run
      (answerLayer b A me)).run flag) w fun r w' => r.1.2 = l ∧ r.2 = flag ∧ w'.stack = w.stack ∧ w'.net = w.net :=
    fun x => (ends_act_pure x).2 ⟨rfl, rfl, rfl, rfl⟩
  unfold Tls.Layer.create
  dsimp only
  split
  · exact hnew _ _
  · split
    · exact hpure _
    · split
      · exact hpure _
      · exact hnew _ _

/-- A layer is put on a connection, or nothing happens. -/
theorem exec_wrap (hc : w.stack.Counted) :
    Ends (exec b k (.wrap new layer)) w fun r w' =>
      (∃ n, r = .ok n ∧ w'.stack.inner? n = some new ∧ w'.stack.queue = w.stack.queue ∧
        ∀ x, w.stack.isAlive x = true → w'.stack.isAlive x = true) ∨
      ∃ f, r = .error f ∧ w'.stack = w.stack ∧ w'.net = w.net := by
  cases k with
  | zero => exact ends_throw _
  | succ k =>
    show Ends (wrap b new layer) w _
    unfold wrap
    simp only [ends_bind, ends_lookup]
    cases he : w.stack.find? new with
    | none => exact (ends_pure _).2 (.inr ⟨_, rfl, rfl, rfl⟩)
    | some e =>
      dsimp only
      split
      · exact (ends_pure _).2 (.inr ⟨_, rfl, rfl, rfl⟩)
      · unfold insert
        simp only [ends_bind, ends_getSlots, ends_modifySlots, ends_note, ends_pure]
        obtain ⟨-, hqueue⟩ := insert_frame w.stack (layerName b layer) layer
        have hfind : ∀ x, (w.stack.insert (layerName b layer) layer).find? x =
            if x = w.stack.nextHandle then some { layer := some layer, name := layerName b layer }
            else w.stack.find? x := fun x => find?_insert hc
        generalize w.stack.insert (layerName b layer) layer = s₁ at hqueue hfind ⊢
        refine .inl ⟨_, rfl, ?_, hqueue, fun x hx => ?_⟩
        · -- the upper one refers to the lower, whatever is done to the lower afterwards
          unfold link
          refine Eq.trans (inner?_update ?_) ?_
          · exact fun _ _ => rfl
          unfold inner?
          rw [find?_update_self, hfind, if_pos rfl]
          rfl
        · unfold link
          rw [isAlive_update, isAlive_update, isAlive_iff, hfind]
          obtain ⟨e', he'⟩ := isAlive_iff.1 hx
          split
          · exact ⟨_, rfl⟩
          · exact ⟨e', he'⟩

/-- What a layer does with the news of a newcomer: it lets it wait for the one above, or refuses it and does nothing. -/
def Relays (src new : Handle) (layer : Layer H) (w : World H) (r : (Layer H × Outcome) × Bool) (w' : World H) : Prop :=
  r.2 = false ∧ ((r.1.2 = .ok () ∧ Announced src new w.stack w'.stack) ∨
    ∃ f, r.1.2 = .error f ∧ r.1.1 = layer ∧ w'.stack = w.stack ∧ w'.net = w.net)

/-- A layer that hands the news on as it is. -/
theorem announced_as_is (src new : Handle) (s : Slots H) : Announced src new s (s.enqueue src (.accept new)) :=
  ⟨⟨new, .inl rfl, rfl⟩, fun _ hx => hx⟩

theorem plain_relays (l : Plain H.Pcb) :
    Ends ((runMethod b (exec b k) src (.op (.lower (.accept new))) (.plain l)).run false) w
      (Relays src new (.plain l) w) := by
  refine ends_run_map ?_
  simp only [Plain.step, Plain.lower, ends_act_bind]
  refine (ends_act_request _).2 ?_
  simp only [answerLayer, ends_run_lift, enqueue, ends_modifySlots, ends_act_pure]
  exact ⟨rfl, .inl ⟨rfl, announced_as_is src new w.stack⟩⟩

theorem passthrough_relays (name : String) :
    Ends ((runMethod b (exec b k) src (.op (.lower (.accept new))) (.passthrough name)).run false) w
      (Relays src new (.passthrough name) w) := by
  refine ends_run_map ?_
  simp only [Layer.forward, ends_act_bind]
  refine (ends_act_request _).2 ?_
  simp only [answerLayer, ends_run_lift, enqueue, ends_modifySlots, ends_act_pure]
  exact ⟨rfl, .inl ⟨rfl, announced_as_is src new w.stack⟩⟩

/-- A TLS layer that listens puts a layer of its own on the newcomer. -/
theorem secure_relays (l : Tls.Layer H.Source H.Engine) (hc : w.stack.Counted) :
    Ends ((runMethod b (exec b k) src (.op (.lower (.accept new))) (.secure l)).run false) w
      (Relays src new (.secure l) w) := by
  refine ends_run_map ?_
  show Ends ((((Secure.lower b.engine src (.accept new)).run l).run (answerLayer b (exec b k) src)).run false) w _
  have hrefuse : ∀ (f : Fault) (w' : World H), w'.stack = w.stack → w'.net = w.net →
      Ends ((((pure (.error f) : Secure.Act H Outcome).run l).run (answerLayer b (exec b k) src)).run false) w'
        fun r w' => Relays src new (.secure l) w ((.secure r.1.2, r.1.1), r.2) w' := by
    intro f w' hstack hnet
    exact (ends_act_pure _).2 ⟨rfl, .inr ⟨f, rfl, rfl, hstack, hnet⟩⟩
  simp only [Secure.lower, ends_act_bind, ends_act_get]
  split
  · exact hrefuse _ w rfl rfl
  · unfold Secure.accept
    simp only [ends_act_bind, ends_act_get]
    refine (create_ends l.config).mono ?_
    rintro ⟨⟨r, l'⟩, flag⟩ w₁ ⟨rfl, rfl, hstack, hnet⟩
    cases r with
    | error f => exact hrefuse f w₁ hstack hnet
    | ok made =>
      dsimp only
      rw [ends_act_bind]
      refine (ends_act_request _).2 ?_
      simp only [answerLayer, ends_run_lift]
      refine (exec_wrap (hstack ▸ hc)).mono fun r w₂ h => ?_
      rw [hstack, hnet] at h
      rcases h with ⟨n, rfl, hinner, hqueue, hkept⟩ | ⟨f, rfl, hstack₂, hnet₂⟩
      · dsimp only
        rw [ends_act_bind]
        refine (ends_act_request _).2 ?_
        simp only [answerLayer, ends_run_lift, ends_note, ends_act_bind]
        refine (ends_act_request _).2 ?_
        simp only [answerLayer, ends_run_lift, enqueue, ends_modifySlots, ends_act_pure]
        refine ⟨rfl, .inl ⟨rfl, ⟨n, .inr hinner, ?_⟩, hkept⟩⟩
        show w₂.stack.queue ++ _ = _
        rw [hqueue]
        rfl
      · exact hrefuse f w₂ hstack₂ hnet₂

/-- **A layer that hears of a newcomer** lets the news wait for the one above, or refuses the newcomer and leaves
everything as it is. -/
theorem lower_accept [IsEmpty H.Layer] {free : Handle → Exec H Unit} (he : w.stack.find? src = some e)
    (hl : e.layer = some layer) (hc : w.stack.Counted) :
    Ends (withLayer b (exec b k) free src (.op (.lower (.accept new)))) w fun r w' =>
      (r = .ok (.ok ()) ∧ Announced src new w.stack w'.stack) ∨
        ∃ f, r = .ok (.error f) ∧ w'.stack = w.stack ∧ w'.net = w.net := by
  have halive : (w.stack.away src).isAlive src = true := isAlive_away he
  have hcounted : (w.stack.away src).Counted := hc.update.of_same rfl rfl rfl
  have hrelays : Ends ((runMethod b (exec b k) src (.op (.lower (.accept new))) layer).run false)
      { w with stack := w.stack.away src } (Relays src new layer { w with stack := w.stack.away src }) := by
    cases layer with
    | plain l => exact plain_relays l
    | secure l => exact secure_relays l hcounted
    | passthrough name => exact passthrough_relays name
    | custom l => exact isEmptyElim l
  refine ends_withLayer he hl (hrelays.mono ?_)
  rintro ⟨⟨layer', r⟩, flag⟩ u ⟨hflag, h⟩
  obtain rfl : flag = false := hflag
  rcases h with ⟨hr, hann⟩ | ⟨f, hr, hlayer, hstack, hnet⟩
  · obtain rfl : r = .ok () := hr
    exact ⟨hann.kept src halive, (ends_pure _).2 (.inl ⟨rfl, hann.back layer'⟩)⟩
  · obtain rfl : r = .error f := hr
    obtain rfl : layer' = layer := hlayer
    refine ⟨?_, (ends_pure _).2 (.inr ⟨f, rfl, ?_, hnet⟩)⟩
    · rw [hstack]
      exact halive
    · show u.stack.back src layer' = w.stack
      rw [hstack]
      show (w.stack.away src).back src layer' = w.stack
      rw [back_away]
      refine update_eq_self fun e' he' => ?_
      cases he.symm.trans he'
      rw [← hl]

/-! ## What becomes of a newcomer -/

/-- A newcomer was aborted in the world `u`: it is gone, and all that it stood on is given up with it. -/
structure Discarded (new : Handle) (u u' : World H) : Prop where
  gone : u'.stack.isAlive new = false
  all : ∀ hs, u.stack.Chain (new :: hs) → GivenUp (new :: hs) u u'

/-- What becomes of a newcomer for good when the news of it, on its way from `src`, is delivered in the world `w`. -/
inductive Fate (b : Behaviour H) (k : Nat) (src new : Handle) (w w' : World H) : Prop
  /-- Whoever was to hear of it had gone. Nobody learns of it, and it stays as it is. -/
  | lost (gone : w.stack.isAlive src = false) (stack : w'.stack = w.stack) (net : w'.net = w.net)
  /-- It was handed to the application, which has accepted it. -/
  | handed {e : Entry H} {code code' : H.Code} {v : World H} (here : w.stack.find? src = some e) (top : e.outer = none)
    (registered : e.callbacks.accept = some code)
    (accepted : run b k (b.callback code (.accept src new)) { w with stack := w.stack.takeCallback src .accept } =
      .ok (code', .ok ()) v)
  /-- Nobody wanted it, and it was aborted. -/
  | refused {u : World H} (asked : exec b k (.ask new .abort) u = .ok () w') (discarded : Discarded new u w')

section

variable [IsEmpty H.Layer]

theorem abort_discards (k : Nat) (hs : w.stack.Sound []) (hp : w.stack.pumping = true) :
    Ends (exec b k (.ask new .abort)) w fun _ w' => Discarded new w w' := by
  intro _ w' hrun
  refine ⟨abort_buries k hs hp _ w' hrun, fun hs' hc => ?_⟩
  exact abort_gives_up k hc (hc.upright hs.toLinked) (.inr hp) _ w' hrun

/-- A newcomer that is refused, of which a note is written. -/
theorem refuses {n : Note} {w₀ : World H} (hs : w.stack.Sound []) (hp : w.stack.pumping = true) :
    Ends (exec b k (.ask new .abort)) { w with memory := b.note n w.memory } fun _ w' => Fate b k src new w₀ w' := by
  intro a w' hrun
  exact .refused hrun (abort_discards (w := { w with memory := b.note n w.memory }) k hs hp a w' hrun)

/-- The news of a newcomer reaches the application. -/
theorem deliverToApp_accept (hs : w.stack.Sound []) (hp : w.stack.pumping = true) (he : w.stack.find? src = some e)
    (ho : e.outer = none) :
    Ends (deliverToApp b (exec b k) (freeEntry b (exec b k) k) src (.accept new)) w fun _ w' =>
      Fate b k src new w w' := by
  unfold deliverToApp callback
  simp only [ends_bind, ends_lookup, he]
  cases hcode : e.callbacks.get .accept with
  | none =>
    simp only [ends_pure, ends_bind, ends_note]
    exact refuses hs hp
  | some code =>
    simp only [ends_bind, ends_modifySlots]
    intro r w₁ hrun
    -- the callback leaves the slots in order, whatever it has done
    have htaken : (w.stack.takeCallback src .accept).Sound [] :=
      hs.update (fun _ => rfl) (fun _ => rfl) fun _ => rfl
    have hcarried := Recorded.program_ends (Recorded.exec_orderly (b := b) k) (b.callback code (.accept src new))
      (w := { w with stack := w.stack.takeCallback src .accept }) (Recorded.idle_of_pumping htaken hp)
    have hmoved := hcarried.mono fun _ _ w' h =>
      (⟨h.sound, h.pumping.trans hp⟩ : w'.stack.Sound [] ∧ w'.stack.pumping = true)
    obtain ⟨hsound, hpump⟩ := hmoved.forgotten (Recorded.forget_run k _) r w₁ hrun
    have hback : (w₁.stack.restoreCallback src .accept e.epoch r.1).Sound [] := by
      refine hsound.update (fun e => ?_) (fun e => ?_) (fun e => ?_) <;> split <;> rfl
    obtain ⟨code', verdict⟩ := r
    simp only [ends_pure]
    cases verdict with
    | ok _ => exact (ends_pure _).2 (.handed he ho hcode hrun)
    | error f =>
      simp only [ends_bind, ends_note]
      exact refuses (w := { w₁ with stack := w₁.stack.restoreCallback src .accept e.epoch code' }) hback hpump

/-- The news of a newcomer reaches the layer above. -/
theorem deliverToLayer_accept {outer : Handle} (hs : w.stack.Sound []) (hp : w.stack.pumping = true)
    (ho : w.stack.outer? src = some outer) :
    Ends (deliverToLayer b (exec b k) (freeEntry b (exec b k) k) outer src (.accept new)) w fun _ w' =>
      Fate b k src new w w' ∨ Announced outer new w.stack w'.stack := by
  obtain ⟨eo, heo, -⟩ := inner?_eq_some.1 ((hs.agree outer src).2 ho)
  have hlayer : eo.layer ≠ none := fun hnone => absurd ((hs.home outer eo heo).1 hnone) List.not_mem_nil
  obtain ⟨layer, hl⟩ := Option.ne_none_iff_exists'.1 hlayer
  unfold deliverToLayer
  refine (ends_bind _ _).2 ((lower_accept heo hl hs.toCounted).mono ?_)
  rintro r w₁ (⟨rfl, hann⟩ | ⟨f, rfl, hstack, hnet⟩)
  · exact (ends_pure _).2 (.inr hann)
  · simp only [Except.bind, id, ends_bind, ends_note]
    refine Ends.mono (refuses ?_ ?_) fun _ _ h => Or.inl h
    · rw [hstack]
      exact hs
    · rw [hstack]
      exact hp

/-- **When the news of a newcomer is delivered**, that settles its fate, or the layer above lets the news wait again. -/
theorem deliver_accept (hs : w.stack.Sound []) (hp : w.stack.pumping = true) :
    Ends (deliver b (exec b k) (freeEntry b (exec b k) k) (news src new)) w fun _ w' =>
      Fate b k src new w w' ∨ ∃ outer, w.stack.outer? src = some outer ∧ Announced outer new w.stack w'.stack := by
  unfold deliver news
  simp only [ends_bind, ends_lookup]
  cases he : w.stack.find? src with
  | none =>
    simp only [ends_note]
    exact .inl (.lost (isAlive_eq_false.2 he) rfl rfl)
  | some e =>
    cases ho : e.outer with
    | none =>
      simp only [ho]
      exact (deliverToApp_accept hs hp he ho).mono fun _ _ h => .inl h
    | some outer =>
      simp only [ho]
      have hout : w.stack.outer? src = some outer := outer?_eq_some.2 ⟨e, he, ho⟩
      exact (deliverToLayer_accept hs hp hout).mono fun _ _ h => h.imp_right fun hann => ⟨outer, hout, hann⟩

/-- A delivery leaves the slots in order. -/
theorem deliver_sound (q : Queued H) (hs : w.stack.Sound []) (hp : w.stack.pumping = true) :
    Ends (deliver b (exec b k) (freeEntry b (exec b k) k) q) w fun _ w' =>
      w'.stack.Sound [] ∧ w'.stack.pumping = true := by
  have hA := Recorded.exec_orderly (b := b) k
  have howed : ({ w.stack with queue := q :: w.stack.queue } : Slots H).outstanding =
      q.owed.toList ++ w.stack.outstanding := by
    unfold outstanding
    cases ho : q.owed <;> simp [ho]
  have hends := Recorded.deliver_ends (b := b) (s := { w.stack with queue := q :: w.stack.queue }) hA
    (Recorded.freeEntry_frees (b := b) hA.toModest k) hs hp (fun _ => rfl) rfl howed
  have hmoved := hends.mono fun _ _ w' h =>
    (⟨h.sound, h.pumping.trans hp⟩ : w'.stack.Sound [] ∧ w'.stack.pumping = true)
  refine hmoved.forgotten ?_
  rw [Recorded.forget_deliver, Recorded.forget_exec]
  congr 1
  funext id
  rw [Recorded.forget_freeEntry, Recorded.forget_exec]

end

/-! ## A row of deliveries -/

/-- An event that was delivered, the world in which it was, and the world that came of it. -/
structure Delivered (H : Host) where
  event : Queued H
  before : World H
  after : World H

/-- The deliveries of a pump that begins in `w` and has worked off the queue in `w'`. -/
inductive Drained (b : Behaviour H) (k : Nat) : World H → List (Delivered H) → World H → Prop
  | done {w : World H} (hq : w.stack.queue = []) : Drained b k w [] w
  | next {w w' w'' : World H} {q : Queued H} {rest : List (Queued H)} {l : List (Delivered H)}
    (hq : w.stack.queue = q :: rest)
    (hd : deliver b (exec b k) (freeEntry b (exec b k) k) q { w with stack := { w.stack with queue := rest } } = .ok () w')
    (h : Drained b k w' l w'') : Drained b k w (⟨q, { w with stack := { w.stack with queue := rest } }, w'⟩ :: l) w''

/-- What becomes of a newcomer, of which `src` has news, in a row of deliveries. -/
inductive Disposed (b : Behaviour H) (k : Nat) : List (Delivered H) → Handle → Handle → Prop
  | later {d : Delivered H} {l : List (Delivered H)} {src new : Handle} (h : Disposed b k l src new) :
    Disposed b k (d :: l) src new
  /-- The delivery of the news settles its fate. -/
  | settled {l : List (Delivered H)} {src new : Handle} {w w' : World H} (h : Fate b k src new w w') :
    Disposed b k (⟨news src new, w, w'⟩ :: l) src new
  /-- The layer above passes on the news of it, or of the connection that it has put on it. -/
  | passed {l : List (Delivered H)} {src new outer n : Handle} {w w' : World H} (above : w.stack.outer? src = some outer)
    (covers : Covers w'.stack n new) (h : Disposed b k l outer n) :
    Disposed b k (⟨news src new, w, w'⟩ :: l) src new

/-- **No news of a newcomer is left over** when a pump has worked off the queue. The induction is on how many deliveries
there may be; the news that a delivery lets wait again is among those that wait for the rest of them. -/
theorem drain_disposes [IsEmpty H.Layer] (n : Nat) (hs : w.stack.Sound []) (hp : w.stack.pumping = true) :
    Ends (drain b (exec b k) (freeEntry b (exec b k) k) n) w fun _ w' => w'.stack.queue = [] ∧
      ∃ l, Drained b k w l w' ∧ ∀ src new, news src new ∈ w.stack.queue → Disposed b k l src new := by
  induction n generalizing w with
  | zero => exact ends_throw _
  | succ n ih =>
    unfold drain
    simp only [ends_bind, ends_getSlots]
    cases hq : w.stack.queue with
    | nil =>
      refine (ends_pure _).2 ⟨hq, [], .done hq, fun src new hmem => ?_⟩
      exact absurd hmem List.not_mem_nil
    | cons q rest =>
      simp only [ends_bind, ends_modifySlots]
      have hs₀ : ({ w.stack with queue := rest } : Slots H).Sound [] := hs.of_same rfl rfl rfl rfl
      intro u w₁ hrun
      obtain ⟨hs₁, hp₁⟩ := deliver_sound (w := { w with stack := { w.stack with queue := rest } }) q hs₀ hp u w₁ hrun
      have hwaits : w₁.stack.Awaits rest := deliver_patient q rest { w with stack := { w.stack with queue := rest } }
        ⟨hp, List.prefix_refl _⟩ u w₁ hrun
      refine (ih hs₁ hp₁).mono fun _ w₂ h => ?_
      obtain ⟨hempty, l, hdrained, hall⟩ := h
      refine ⟨hempty, _, .next hq hrun hdrained, fun src new hmem => ?_⟩
      rcases List.mem_cons.1 hmem with rfl | hmem
      · -- the news that is delivered first
        have hnow := deliver_accept (w := { w with stack := { w.stack with queue := rest } }) hs₀ hp u w₁ hrun
        rcases hnow with hfate | ⟨outer, hout, ⟨⟨n', hcovers, hqueue⟩, -⟩⟩
        · exact .settled hfate
        · refine .passed hout hcovers (hall outer n' ?_)
          rw [hqueue]
          exact List.mem_append_right _ List.mem_cons_self
      · exact .later (hall src new (hwaits.waits.subset hmem))

/-! ## What a TCP engine reports -/

/-- How a TCP engine is answered that reports an endpoint `p` it has accepted for `id`, and what has become of the
newcomer by then. -/
inductive Received (b : Behaviour H) (k : Nat) (id : Handle) (p : PcbRef H.Pcb) (w : World H) : Outcome → World H → Prop
  /-- The listener has gone. No connection comes, and the endpoint is closed. -/
  | turnedAway {w' : World H} (gone : w.stack.isAlive id = false) (stack : w'.stack = w.stack)
    (closed : ∀ i, p = .loopback i → (w'.net.pcb i).state = .closed) : Received b k id p w (.error .invalidArgument) w'
  /-- The listener does not want the newcomer: it is gone again, and the endpoint is closed. -/
  | refused {f : Fault} {w' : World H} (gone : w'.stack.isAlive w.stack.nextHandle = false)
    (closed : ∀ i, p = .loopback i → (w'.net.pcb i).state = .closed) : Received b k id p w (.error f) w'
  /-- Events are being delivered, and the news of the newcomer waits behind the others. -/
  | waits {n : Handle} {w' : World H} (pumping : w.stack.pumping = true)
    (alive : w'.stack.isAlive w.stack.nextHandle = true) (covers : Covers w'.stack n w.stack.nextHandle)
    (queue : w'.stack.queue = w.stack.queue ++ [news id n]) : Received b k id p w (.ok ()) w'
  /-- The news of the newcomer was delivered at once, and whatever else came of it. -/
  | delivered {n : Handle} {v v' : World H} {l : List (Delivered H)} (rests : w.stack.pumping = false)
    (alive : v.stack.isAlive w.stack.nextHandle = true) (covers : Covers v.stack n w.stack.nextHandle)
    (waits : v.stack.queue = [news id n]) (drained : Drained b k v l v') (disposed : Disposed b k l id n)
    (empty : v'.stack.queue = []) :
    Received b k id p w (.ok ()) { v' with stack := { v'.stack with pumping := false } }

variable {A : Answers H} {free : Handle → Exec H Unit}

/-- A connection over an endpoint comes. -/
theorem ends_openPcb (p : PcbRef H.Pcb) :
    Ends (openPcb b p) w fun x w' =>
      x = w.stack.nextHandle ∧ w'.stack = w.stack.insert "tcp" (.plain (Plain.ofPcb p)) := by
  unfold openPcb insert
  simp only [ends_bind, ends_getSlots]
  refine (Recorded.ends_performPcb p _).mono fun _ w₁ h₁ => ?_
  simp only [ends_modifySlots, ends_note, ends_pure]
  rw [h₁]
  exact ⟨rfl, rfl⟩

theorem performPcb_abort (p : PcbRef H.Pcb) :
    Ends (performPcb b p .abort) w fun _ w' =>
      w'.stack = w.stack ∧ ∀ i, p = .loopback i → (w'.net.pcb i).state = .closed := by
  intro a w' hrun
  refine ⟨Recorded.ends_performPcb p .abort a w' hrun, fun i hi => ?_⟩
  subst hi
  cases hrun
  exact Loopback.Net.state_abort _ _

/-- The only event that waits is the end of a connection of which nobody wants to know. -/
theorem pump_unheard {x : Handle} {reason : Fault} (hq : w.stack.queue = [⟨x, .error reason, .sink none⟩]) :
    Ends (pump b A free n) w fun _ w' => (∀ y, w'.stack.find? y = w.stack.find? y) ∧ w'.net = w.net := by
  unfold pump
  simp only [ends_bind, ends_getSlots]
  split
  · exact (ends_pure _).2 ⟨fun _ => rfl, rfl⟩
  · simp only [ends_bind, ends_modifySlots]
    cases n with
    | zero => exact ends_throw _
    | succ n =>
      unfold drain
      simp only [ends_bind, ends_getSlots, hq, ends_modifySlots, deliver, ends_note, ends_pure]
      cases n with
      | zero => exact ends_throw _
      | succ n =>
        unfold drain
        simp only [ends_bind, ends_getSlots, ends_pure]
        exact ⟨fun _ => rfl, trivial⟩

/-- A connection is as `openPcb` has made it: it stands on nothing but an endpoint, and nobody listens. -/
def fresh (p : PcbRef H.Pcb) : Entry H := { layer := some (.plain (Plain.ofPcb p)), name := "tcp" }

/-- A newcomer is aborted of which nobody has heard. -/
theorem abort_fresh {p : PcbRef H.Pcb} (k : Nat) (hi : w.stack.Idle) (he : w.stack.find? new = some (fresh p)) :
    Ends (exec b k (.ask new .abort)) w fun _ w' =>
      w'.stack.isAlive new = false ∧ ∀ i, p = .loopback i → (w'.net.pcb i).state = .closed := by
  cases k with
  | zero => exact ends_throw _
  | succ k =>
    have hc : w.stack.Chain [new] := .ground he rfl rfl
    have hgone : ∀ {v : World H}, GivenUp [new] w v →
        v.stack.isAlive new = false ∧ ∀ i, p = .loopback i → (v.net.pcb i).state = .closed := by
      intro v h
      obtain ⟨hdead, hclosed⟩ := h new List.mem_cons_self
      refine ⟨isAlive_eq_false.2 hdead, fun i hp => hclosed i ⟨_, _, he, rfl, ?_⟩⟩
      rw [← hp]
      rfl
    refine operate_abort (abort_below k) hc (hc.upright hi.sound.toLinked) he fun v hv => ?_
    cases hp : w.stack.pumping with
    | true => exact ends_pump (.inr (.inl (hv.pumping.trans hp))) (hgone hv.gone)
    | false =>
      -- nothing waited, so its end is the only event, and nobody is told of it
      have hqueue : v.stack.queue = [⟨new, .error .aborted, .sink none⟩] := by
        rw [hv.queue, hi.settled hp]
        rfl
      refine (pump_unheard hqueue).mono fun _ w' h => ?_
      obtain ⟨hdead, hclosed⟩ := hgone hv.gone
      refine ⟨isAlive_eq_false.2 ?_, fun i hp => ?_⟩
      · rw [h.1]
        exact isAlive_eq_false.1 hdead
      · rw [h.2]
        exact hclosed i hp

/-- What comes of it when a listener is told of a newcomer: the news waits until the pump comes to it, or the listener does
not want it. -/
theorem ask_lower_accept [IsEmpty H.Layer] {id : Handle} (k : Nat) (hs : w.stack.Sound []) (hq : w.stack.Quiet)
    (ha : w.stack.isAlive id = true) :
    Ends (exec b (k + 1) (.ask id (.lower (.accept new)))) w fun r w' =>
      (r = .ok () ∧ ∃ v : World H, Announced id new w.stack v.stack ∧ v.stack.Sound [] ∧
        v.stack.pumping = w.stack.pumping ∧ pump b (exec b k) (freeEntry b (exec b k) k) k v = .ok () w') ∨
      ∃ f, r = .error f ∧ w'.stack = w.stack := by
  show Ends (operate b (exec b k) (freeEntry b (exec b k) k) k id (.lower (.accept new))) w _
  unfold operate call
  simp only [ends_bind, ends_note]
  generalize b.note _ w.memory = m
  obtain ⟨e, he⟩ := isAlive_iff.1 ha
  have hlayer : e.layer ≠ none := fun hnone => absurd ((hs.home id e he).1 hnone) List.not_mem_nil
  obtain ⟨layer, hl⟩ := Option.ne_none_iff_exists'.1 hlayer
  have hA := Recorded.exec_orderly (b := b) k
  have hhandled := Recorded.withLayer_ends (b := b) (w := { w with memory := m }) hA.toModest
    (Recorded.freeEntry_frees (b := b) hA.toModest k) (m := .op (.lower (.accept new))) (by simp) (fun _ => rfl) hs
    (clear_nil w.stack id)
  have hsound := (hhandled.mono fun _ _ v h =>
    (⟨h.sound, h.pumping⟩ : v.stack.Sound [] ∧ v.stack.pumping = w.stack.pumping)).forgotten (y := withLayer b (exec b k)
      (freeEntry b (exec b k) k) id (.op (.lower (.accept new)))) (by
        rw [Recorded.forget_withLayer, Recorded.forget_exec]
        congr 1
        funext x
        rw [Recorded.forget_freeEntry, Recorded.forget_exec])
  intro r v hrun
  obtain ⟨hs', hp'⟩ := hsound r v hrun
  rcases lower_accept (w := { w with memory := m }) he hl hs.toCounted r v hrun with ⟨rfl, hann⟩ | ⟨f, rfl, hstack, -⟩
  · intro u w' hpump
    exact (ends_pure _).2 (.inl ⟨rfl, v, hann, hs', hp', hpump⟩)
  · refine ends_pump ?_ ((ends_pure _).2 (.inr ⟨f, rfl, hstack⟩))
    rw [hstack]
    exact hq

/-- Nobody listens any more. -/
theorem dispatch_gone {id : Handle} {p : PcbRef H.Pcb} (ha : w.stack.isAlive id = false) :
    Ends (dispatch b A id (.accepted p)) w (Received b k id p w) := by
  unfold dispatch
  simp only [ends_bind, ends_getSlots, ha, Bool.false_eq_true, if_false, ends_note]
  exact (performPcb_abort p).mono fun _ w' h => (ends_pure _).2 (.turnedAway ha h.1 h.2)

/-- **What a TCP engine is answered that reports an endpoint it has accepted**, and what has become of the newcomer by
then. -/
theorem dispatch_accepted [IsEmpty H.Layer] {id : Handle} {p : PcbRef H.Pcb} (k : Nat) (hi : w.stack.Idle) :
    Ends (exec b (k + 2) (.dispatch id (.accepted p))) w (Received b k id p w) := by
  show Ends (dispatch b (exec b (k + 1)) id (.accepted p)) w _
  cases ha : w.stack.isAlive id with
  | false => exact dispatch_gone ha
  | true =>
    unfold dispatch
    simp only [ends_bind, ends_getSlots, ha, if_true]
    refine (ends_openPcb p).mono ?_
    rintro new w₁ ⟨hnew, hstack⟩
    -- the newcomer is there, beside the listener and all others
    have hfind : ∀ x, w₁.stack.find? x = if x = new then some (fresh p) else w.stack.find? x := by
      intro x
      rw [hstack, hnew]
      exact find?_insert hi.sound.toCounted
    obtain ⟨hlevel, hqueue⟩ := insert_frame w.stack "tcp" (.plain (Plain.ofPcb p))
    rw [← hstack] at hlevel hqueue
    have hi₁ : w₁.stack.Idle := by
      refine ⟨?_, fun hp => ?_⟩
      · rw [hstack]
        exact hi.sound.insert _ _
      · rw [hqueue]
        exact hi.settled (hlevel.pumping.symm.trans hp)
    have ha₁ : w₁.stack.isAlive id = true := by
      rw [isAlive_iff, hfind]
      split
      · exact ⟨_, rfl⟩
      · exact isAlive_iff.1 ha
    have hthere : w₁.stack.isAlive new = true := isAlive_iff.2 ⟨fresh p, by rw [hfind, if_pos rfl]⟩
    refine (ask_lower_accept k hi₁.sound hi₁.quiet ha₁).mono ?_
    rintro r w₂ (⟨rfl, v, ⟨⟨n, hcovers, hwaits⟩, hkept⟩, hs, hp, hpump⟩ | ⟨f, rfl, hstack₂⟩)
    · rw [ends_pure]
      rw [hnew] at hcovers hthere
      cases hpumping : w.stack.pumping with
      | true =>
        -- whoever delivers events at the moment will come to this one
        have hbusy : v.stack.Quiet := .inr (.inl (hp.trans (hlevel.pumping.trans hpumping)))
        have hstays : Ends (pump b (exec b k) (freeEntry b (exec b k) k) k) v fun _ w' => w' = v :=
          ends_pump hbusy rfl
        obtain rfl : w₂ = v := hstays () w₂ hpump
        refine .waits hpumping (hkept _ hthere) hcovers ?_
        rw [hwaits, hqueue]
      | false =>
        rw [hlevel.pumping, hpumping] at hp
        have hidle : (decide (0 < v.stack.depth) || v.stack.pumping) = false := by
          rw [hs.depth, hp]
          rfl
        have hdrain := drain_disposes (b := b) (k := k) (w := { v with stack := { v.stack with pumping := true } }) k
          (hs.of_same rfl rfl rfl rfl) rfl
        have hends : Ends (pump b (exec b k) (freeEntry b (exec b k) k) k) v fun _ w' =>
            Received b k id p w (.ok ()) w' := by
          unfold pump
          simp only [ends_bind, ends_getSlots, hidle, Bool.false_eq_true, if_false, ends_modifySlots]
          refine hdrain.mono fun _ v' h => ?_
          obtain ⟨hempty, l, hdrained, hall⟩ := h
          have hsingle : v.stack.queue = [news id n] := by
            rw [hwaits, hqueue, hi.settled hpumping, List.nil_append]
          refine .delivered (v := { v with stack := { v.stack with pumping := true } }) hpumping (hkept _ hthere)
            hcovers hsingle hdrained (hall id n ?_) hempty
          show news id n ∈ v.stack.queue
          rw [hsingle]
          exact List.mem_cons_self
        exact hends () w₂ hpump
    · simp only [ends_bind, ends_pure]
      have hi₂ : w₂.stack.Idle := hstack₂ ▸ hi₁
      refine (abort_fresh (k + 1) hi₂ ?_).mono fun _ w' h => .refused (hnew ▸ h.1) h.2
      rw [hstack₂, hfind, if_pos rfl]

/-- **What becomes of every newcomer**, whenever a TCP engine reports it: from outside, or from a callback.

The engine is refused, and then the endpoint is closed and there is no new connection. Or it is told that all is well,
and the news of the new connection waits. And whenever a pump has worked off the queue, then of each newcomer of which
there was news,

* an application has accepted it, or the TLS connection that was put on it;
* or it was aborted, and is gone with all that it stood on, and the endpoint is closed;
* or the connection that the news came from had gone when it was delivered. Then it stays, and nobody knows of it. -/
theorem newcomers [IsEmpty H.Layer] (b : Behaviour H) (k : Nat) (id : Handle) (p : PcbRef H.Pcb) (hi : w.stack.Idle) :
    Ends (exec b k (.dispatch id (.accepted p))) w (Received b (k - 2) id p w) ∧
      (w.stack.pumping = true → ∀ n, Ends (drain b (exec b k) (freeEntry b (exec b k) k) n) w fun _ w' =>
        w'.stack.queue = [] ∧
          ∃ l, Drained b k w l w' ∧ ∀ src new, news src new ∈ w.stack.queue → Disposed b k l src new) := by
  refine ⟨?_, fun hp n => drain_disposes n hi.sound hp⟩
  rcases k with _ | _ | k
  · exact ends_throw _
  · show Ends (dispatch b (exec b 0) id (.accepted p)) w _
    cases ha : w.stack.isAlive id with
    | false => exact dispatch_gone ha
    | true =>
      -- too short a run for the listener to be told
      unfold dispatch
      simp only [ends_bind, ends_getSlots, ha, if_true]
      exact (ends_openPcb p).mono fun _ _ _ => ends_throw _
  · exact dispatch_accepted k hi

/-! A listener whose newcomer is reported from outside, or by a callback that then closes it. -/

/-- An application that goes along with everything. When a connection is polled, its callback lets the loopback net take
a step, and closes the connection that it has captured. -/
def bystanding : Behaviour meddler :=
  { meddling with
    callback := fun other call =>
      match call with
      | .poll _ => .ask .step fun _ => .ask (.ask other .close) fun _ => .done (other, .ok ())
      | _ => .done (other, .ok ()) }

/-- A listener, a caller for whom an endpoint waits to be accepted, and a bystander. -/
def calling : Act meddler Unit :=
  .ask .newPcb fun i =>
  .ask (.openPcb (.loopback i)) fun listener =>
  .ask (.ask listener (.bind Loopback.Net.doorway)) fun _ =>
  .ask (.ask listener (.listen 1)) fun _ =>
  .ask (.register listener .accept listener) fun _ =>
  .ask .newPcb fun j =>
  .ask (.openPcb (.loopback j)) fun caller =>
  .ask (.ask caller (.connect Loopback.Net.doorway)) fun _ =>
  .ask .step fun _ =>
  .ask (.insert (.passthrough "bystander")) fun bystander =>
  .ask (.register bystander .poll listener) fun _ => .done ()

/-- The endpoint is reported from outside. -/
theorem newcomers_calling : ∃ w w' : World meddler, Stack.run bystanding 20 calling untouched = .ok () w ∧ w.stack.Idle ∧
    exec bystanding 20 (.dispatch ⟨0, 0⟩ (.accepted (.loopback 2))) w = .ok (.ok ()) w' ∧
    Received bystanding 18 ⟨0, 0⟩ (.loopback 2) w (.ok ()) w' := by
  have hreaches : Exec.reaches (Stack.run bystanding 20 calling) untouched (fun _ w =>
      Exec.reaches (exec bystanding 20 (.dispatch ⟨0, 0⟩ (.accepted (.loopback 2)))) w fun r _ => r = .ok ()) = true := by
    decide +kernel
  obtain ⟨_, w, hrun, hdispatch⟩ := Exec.exists_of_reaches hreaches
  obtain ⟨r, w', hreported, hr⟩ := Exec.exists_of_reaches hdispatch
  obtain rfl := of_decide_eq_true hr
  obtain ⟨t, ht⟩ := Recorded.exists_record (Recorded.forget_run 20 calling) hrun
  have hidle : w.stack.Idle := (Recorded.run_ends 20 calling (by exact idle_empty) _ w ht).idle
  obtain ⟨hreceived, -⟩ := newcomers bystanding 20 ⟨0, 0⟩ (.loopback 2) hidle
  exact ⟨w, w', hrun, hidle, hreported, hreceived _ _ hreported⟩

/-- The bystander is polled: its callback has the endpoint reported, and closes the listener. -/
def strand : Act meddler Unit := calling >>= fun _ => .ask (.ask ⟨2, 0⟩ (.lower .poll)) fun _ => .done ()

/-- The newcomers that were handed to an application. -/
def handovers (t : List (Mark meddler)) : List Handle := t.filterMap fun
  | .called _ _ (.accept _ new) => some new
  | _ => none

/-- **A newcomer stays that nobody knows of**, when its listener is closed while the news of it waits: no event waits any
more, no application was ever told of it, and it is still there, over an endpoint that is still connected. -/
theorem newcomer_stranded : ∃ t w', Recorded.run bystanding 20 strand untouched = .ok ((), t) w' ∧
    Mark.births t = [⟨0, 0⟩, ⟨1, 0⟩, ⟨2, 0⟩, ⟨3, 0⟩] ∧ handovers t = [] ∧ w'.stack.queue = [] ∧
    w'.stack.isAlive ⟨3, 0⟩ = true ∧ (w'.net.pcb 2).owner = some ⟨3, 0⟩ ∧ (w'.net.pcb 2).state = .established := by
  have hreaches : Exec.reaches (Recorded.run bystanding 20 strand) untouched (fun r w' =>
      Mark.births r.2 = [⟨0, 0⟩, ⟨1, 0⟩, ⟨2, 0⟩, ⟨3, 0⟩] && handovers r.2 = [] && w'.stack.queue.isEmpty &&
      w'.stack.isAlive ⟨3, 0⟩ && (w'.net.pcb 2).owner = some ⟨3, 0⟩ && (w'.net.pcb 2).state = .established) = true := by
    decide +kernel
  obtain ⟨⟨⟨⟩, t⟩, w', hrun, hends⟩ := Exec.exists_of_reaches hreaches
  simp only [Bool.and_eq_true, decide_eq_true_eq, List.isEmpty_iff] at hends
  obtain ⟨⟨⟨⟨⟨hborn, hhanded⟩, hqueue⟩, halive⟩, howner⟩, hstate⟩ := hends
  exact ⟨t, w', hrun, hborn, hhanded, hqueue, halive, howner, hstate⟩

end Stack

end Conduit
