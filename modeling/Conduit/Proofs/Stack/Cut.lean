import Conduit.Proofs.Stack.Lives
import Conduit.Proofs.Stack.Silent
import Conduit.Proofs.Stack.Stream
import Conduit.Proofs.Tls.Gate
import Conduit.Proofs.Tls.Obliging

/-!
# The end of the stream before the handshake is done

When the connection below a TLS layer comes to its end before the handshake is done, nothing of it is handed up: the
connection is lost, with the one below, and the application learns that it is closed.

* `Recorded.withLayer_cut`, `Recorded.deliver_cut`: the end of the stream reaches a layer that still shakes hands.
* `Recorded.drain_cut`: events are delivered, the first of which is that one.
* `Tls.Life.gated`: **the gate of the handshake**, in any life of a layer, and on any stack.
-/

namespace Conduit

open Exec Stack Slots

variable {H : Host} {b : Behaviour H} {s s' : Slots H} {t t₀ : List (Mark H)} {R K : List Handle} {id x y : Handle}
  {e : Entry H} {w w' : World H} {l : Tls.Layer H.Source H.Engine}

namespace Recorded

/-- Whoever goes from a stack takes with it what is known to be below. -/
theorem Known.dead (hk : Known s id K) (hs : s.Linked) (hd : s.isAlive id = false) (hy : y ∈ K) :
    s.isAlive y = false := by
  rw [Bool.eq_false_iff]
  intro halive
  obtain ⟨ey, hey⟩ := isAlive_iff.1 halive
  -- whoever is above a connection is there
  have hon : s.inner? id = some y := (hs.agree id y).2 (outer?_eq_some.2 ⟨ey, hey, hk y hy ey hey⟩)
  obtain ⟨e, he, -⟩ := inner?_eq_some.1 hon
  rw [isAlive_iff.2 ⟨e, he⟩] at hd
  cases hd

theorem Known.update {f : Entry H → Entry H} (hk : Known s id K) (ho : ∀ e, (f e).outer = e.outer) :
    Known (s.update x f) id K := by
  intro z hz e he
  rw [find?_update] at he
  split at he
  · rename_i hx
    subst hx
    obtain ⟨e', he', rfl⟩ := Option.map_eq_some_iff.1 he
    exact (ho e').trans (hk z hz e' he')
  · exact hk z hz e he

/-- Events that wait have no part in it. -/
theorem Known.enqueue (hk : Known s id K) (x : Handle) (ev : Event) : Known (s.enqueue x ev) id K := by
  unfold Slots.enqueue
  split
  · split
    · exact hk
    · split
      · exact hk
      · exact hk.update (x := x) fun _ => rfl
  · exact hk

/-! ## At the layer -/

variable {A : Answers H} {free : Handle → Recorded H Unit}

/-- A layer gives up its connection, which has none above it: that is its end. -/
theorem fail_ends {reason : Fault} {flag : Bool} (he : w.stack.find? id = some e) (ho : e.outer = none)
    (hk : Known w.stack id K) :
    Ends ((answerLayer b A id (.fail reason)).run flag) w fun r t w' =>
      r.2 = true ∧ .ended id reason e.callbacks.err ∈ t ∧ Known w'.stack id K := by
  show Ends ((do monadLift (enqueue (H := H) id (.error reason)); set true : Running H PUnit).run flag) w _
  simp only [ends_run_bind, ends_run_lift, enqueue, ends_bind, ends_lift, ends_getSlots, ends_record, Stack.enqueue,
    ends_modifySlots, List.append_nil, List.nil_append]
  intro p w' hrun
  cases hrun
  refine ⟨rfl, ?_, hk.enqueue id _⟩
  simp [ending, he, ho]

/-! ## Programs of layers -/

section

variable {σ α β : Type} {l : σ} {flag : Bool} {B : (r : Layer.Req H) → Running H r.Ans}

theorem ends_run_program_bind (p : Program (Layer.io H) α) (f : α → Program (Layer.io H) β)
    {post : β × Bool → List (Mark H) → World H → Prop} :
    Ends (((p >>= f).run B).run flag) w post ↔
      Ends ((p.run B).run flag) w fun r t w' => Ends (((f r.1).run B).run r.2) w' fun c u => post c (t ++ u) := by
  induction p generalizing flag w post with
  | done a => simp
  | ask r next ih => simp only [Program.ask_bind, Program.run_ask, ends_run_bind, ih, List.append_assoc]

/-- A layer does one thing, then another. -/
theorem ends_act_bind (x : Layer.Act H σ α) (f : α → Layer.Act H σ β)
    {post : (β × σ) × Bool → List (Mark H) → World H → Prop} :
    Ends ((((x >>= f).run l).run B).run flag) w post ↔
      Ends (((x.run l).run B).run flag) w fun r t w' =>
        Ends ((((f r.1.1).run r.1.2).run B).run r.2) w' fun c u => post c (t ++ u) := by
  rw [StateT.run_bind]
  exact ends_run_program_bind _ _

theorem ends_act_pure (a : α) {post : (α × σ) × Bool → List (Mark H) → World H → Prop} :
    Ends ((((pure a : Layer.Act H σ α).run l).run B).run flag) w post ↔ post ((a, l), flag) [] w := ends_run_pure _

theorem ends_act_modify (f : σ → σ) {post : (PUnit × σ) × Bool → List (Mark H) → World H → Prop} :
    Ends ((((modify f : Layer.Act H σ PUnit).run l).run B).run flag) w post ↔ post ((⟨⟩, f l), flag) [] w :=
  ends_run_pure (a := (PUnit.unit, f l))

theorem ends_act_get {post : (σ × σ) × Bool → List (Mark H) → World H → Prop} :
    Ends ((((get : Layer.Act H σ σ).run l).run B).run flag) w post ↔ post ((l, l), flag) [] w :=
  ends_run_pure (a := (l, l))

theorem ends_act_request (r : Layer.Req H) {post : (r.Ans × σ) × Bool → List (Mark H) → World H → Prop} :
    Ends ((((Layer.Act.request r : Layer.Act H σ r.Ans).run l).run B).run flag) w post ↔
      Ends ((B r).run flag) w fun x => post ((x.1, l), x.2) := by
  show Ends (((B r) >>= fun x => pure (x, l) : Running H (r.Ans × σ)).run flag) w post ↔ _
  simp only [ends_run_bind, ends_run_pure, List.append_nil]

end

/-- A note changes nothing but what the application remembers. -/
theorem note_ends {σ : Type} {l : σ} {flag : Bool} (n : Note)
    {post : (Unit × σ) × Bool → List (Mark H) → World H → Prop} (h : ∀ m, post (((), l), flag) [] { w with memory := m }) :
    Ends ((((Layer.Act.note n : Layer.Act H σ Unit).run l).run (answerLayer b A id)).run flag) w post := by
  refine (ends_act_request _).2 ?_
  show Ends (lift ((monadLift (note b n) : Stack.Running H Unit).run flag)) w _
  simp only [ends_lift, Stack.ends_run_lift, ends_note]
  exact h _

/-- What a layer asks of the connection below, as long as that is there. -/
theorem askBelow_ends {flag : Bool} (hA : Modest A) (hs : w.stack.Sound [id]) (hk : Known w.stack id [y]) (o : Op)
    (ho : (Method.op o).isLower = false) :
    Ends ((((Layer.Act.ask y o : Secure.Act H o.Reply).run l).run (answerLayer b A id)).run flag) w fun r t w' =>
      r.1.2 = l ∧ r.2 = flag ∧ Worked [id] w.stack t w'.stack := by
  refine (ends_act_request _).2 ?_
  show Ends ((monadLift (A (.ask y o)) : Running H o.Reply).run flag) w _
  have hclear : w.stack.Clear [id] y := hk.clear hs (clear_nil _ _) List.mem_cons_self
  refine (ends_run_lift _).2 ((hA.ask [id] y o w (by simp) hs hclear (fun ey hey hnone => ?_) ho).mono fun _ t w' h => ?_)
  · rw [hk y List.mem_cons_self ey hey] at hnone
    cases hnone
  · exact ⟨rfl, rfl, h⟩

/-- A layer lets the connection below go, by force if it must. -/
theorem dropLower_ends {flag : Bool} (hA : Modest A) (hs : w.stack.Sound [id]) :
    Ends ((((Secure.dropLower : Secure.Act H Unit).run l).run (answerLayer b A id)).run flag) w fun r _ w' =>
      r.2 = flag ∧ w'.stack.Sound [id] ∧ w.stack.Shrinks w'.stack := by
  unfold Secure.dropLower
  refine (ends_act_bind _ _).2 ((ends_act_request _).2 ?_)
  show Ends (lift ((do
    pure ((← lookup (H := H) id).bind (·.inner)) : Stack.Running H (Option Handle)).run flag)) w _
  simp only [ends_lift, Stack.ends_run_bind, Stack.ends_run_lift, ends_lookup, Stack.ends_run_pure]
  cases hi : (w.stack.find? id).bind (·.inner) with
  | none => exact (ends_act_pure _).2 ⟨rfl, hs, .refl _⟩
  | some y =>
    have hk : Known w.stack id [y] := by
      have hinner := Known.inner (fun x hx => absurd hx List.not_mem_nil : Known w.stack id []) hs.toLinked
      unfold Slots.inner? at hinner
      rwa [hi, Option.toList_some, List.append_nil] at hinner
    refine (ends_act_bind _ _).2 ((askBelow_ends hA hs hk .close rfl).mono ?_)
    rintro ⟨⟨r, l'⟩, flag'⟩ t w₁ ⟨rfl, rfl, h₁⟩
    cases r with
    | ok _ => exact (ends_act_pure _).2 ⟨rfl, h₁.sound, h₁.shrinks⟩
    | error f =>
      -- it may be gone all the same
      refine (askBelow_ends hA h₁.sound (hk.shrinks h₁.shrinks) .abort rfl).mono ?_
      rintro ⟨⟨r, l'⟩, flag'⟩ u w₂ ⟨rfl, rfl, h₂⟩
      exact ⟨rfl, h₂.sound, h₁.shrinks.trans h₂.shrinks⟩

/-- **A layer that still shakes hands gives up its connection** when the one below comes to its end. -/
theorem step_cut (hA : Modest A) (hp : l.phase = .handshaking) (hs : w.stack.Sound [id])
    (he : w.stack.find? id = some e) (ho : e.outer = none) (hi : e.inner = some y) :
    Ends ((((Secure.step b.engine id (.op (.lower .eof))).run l).run (answerLayer b A id)).run false) w fun r t w' =>
      r.2 = true ∧ .ended id .closed e.callbacks.err ∈ t ∧ Known w'.stack id [y] := by
  have hk : Known w.stack id [y] := by
    have hinner := Known.inner (fun x hx => absurd hx List.not_mem_nil : Known w.stack id []) hs.toLinked
    rwa [inner?_eq_some.2 ⟨e, he, hi⟩, Option.toList_some, List.append_nil] at hinner
  show Ends ((((do Secure.lowerEof b.engine id; pure (.ok ()) : Secure.Act H Outcome).run l).run
    (answerLayer b A id)).run false) w _
  unfold Secure.lowerEof
  simp only [ends_act_bind, ends_act_get, hp, ends_act_modify, ends_act_pure]
  refine note_ends _ fun m => (dropLower_ends (w := { w with memory := m }) hA hs).mono ?_
  rintro ⟨⟨r, l'⟩, flag'⟩ t w₁ ⟨rfl, hs₁, hsh⟩
  -- nothing has been put above it in the meantime, and its callbacks are still those
  obtain ⟨e₁, he₁⟩ := isAlive_iff.1 (hs₁.running id List.mem_cons_self)
  obtain ⟨e', he', ho', hc⟩ := hsh.kept id e₁ he₁
  cases he.symm.trans he'
  refine (ends_act_request _).2 ((fail_ends he₁ (ho'.trans ho) (hk.shrinks hsh)).mono ?_)
  rintro ⟨⟨⟩, flag'⟩ u w₂ ⟨hflag, hmem, hk₂⟩
  rw [hc] at hmem
  exact ⟨hflag, by simp [hmem], hk₂⟩

/-! ## On the stack -/

/-- A TLS layer that still shakes hands, with nothing above it: the connection `id`, over `y`. -/
structure Shaking (s : Slots H) (id y : Handle) (e : Entry H) (l : Tls.Layer H.Source H.Engine) : Prop where
  here : s.find? id = some e
  layer : e.layer = some (.secure l)
  phase : l.phase = .handshaking
  top : e.outer = none
  inner : e.inner = some y

/-- What is left of a connection and of the one below when that has come to its end too early: both are gone, nobody
was called meanwhile, and there is an end to tell of. -/
structure Severed (id y : Handle) (err : Option H.Code) (t : List (Mark H)) (s' : Slots H) : Prop where
  gone : s'.isAlive id = false
  lower : s'.isAlive y = false
  silent : ∀ m ∈ t, m.calls = false
  ended : .ended id .closed err ∈ t

variable [IsEmpty H.Layer]

theorem withLayer_cut (hA : Modest A) (hsilent : Silent A) (hfree : Frees free) (hhush : ∀ x, Hushed 0 (free x))
    (hs : w.stack.Sound []) (h : Shaking w.stack id y e l) :
    Ends (withLayer b A free id (.op (.lower .eof))) w fun _ t w' =>
      Severed id y e.callbacks.err t w'.stack ∧ Handled (.op (.lower .eof)) id [] w.stack t w'.stack := by
  have hhandled := withLayer_ends (b := b) (m := .op (.lower .eof)) hA hfree (by simp) (fun _ => rfl) hs
    (clear_nil w.stack id)
  have hquiet := withLayer_hushed (b := b) hsilent hhush id (.op (.lower .eof)) w (Nat.zero_le _)
  suffices hcut : Ends (withLayer b A free id (.op (.lower .eof))) w fun _ t w' =>
      w'.stack.isAlive id = false ∧ w'.stack.isAlive y = false ∧ .ended id .closed e.callbacks.err ∈ t from
    ((hcut.and hquiet).and hhandled).mono fun _ t w' ⟨⟨⟨hid, hy, hmem⟩, _, hcalls⟩, hh⟩ => ⟨⟨hid, hy, hcalls, hmem⟩, hh⟩
  have halive : w.stack.isAlive id = true := isAlive_iff.2 ⟨e, h.here⟩
  unfold withLayer
  simp only [ends_bind, ends_lift, ends_lookup, h.here, h.layer, ends_modifySlots]
  -- the layer is away while its method runs
  generalize hs₁ : ({ w.stack.update id (fun e => { e with layer := none }) with
    depth := w.stack.depth + 1 } : Slots H) = s₁
  have hsound₁ : s₁.Sound [id] := hs₁ ▸ hs.enter halive
  have hfound₁ : s₁.find? id = some { e with layer := none } := by
    rw [← hs₁]
    exact find?_update_self.trans (by rw [h.here]; rfl)
  have hran := runMethod_ends (b := b) (w := { w with stack := s₁ }) hA (m := .op (.lower .eof)) (by simp) (fun _ => rfl)
    hsound₁ (clear_nil _ _) (.secure l)
  have hcut : Ends ((runMethod b A id (.op (.lower .eof)) (.secure l)).run false) { w with stack := s₁ } fun r t w' =>
      r.2 = true ∧ .ended id .closed e.callbacks.err ∈ t ∧ Known w'.stack id [y] :=
    ends_run_map (step_cut (w := { w with stack := s₁ }) (e := { e with layer := none }) hA h.phase hsound₁ hfound₁ h.top h.inner)
  refine (hran.and hcut).mono ?_
  rintro ⟨⟨layer', reply⟩, release⟩ t w₂ ⟨⟨-, hran⟩, hrelease, hmem, hk⟩
  cases hrelease
  have halive₂ : ({ w₂.stack with depth := w₂.stack.depth - 1 } : Slots H).isAlive id = true :=
    hran.sound.running id List.mem_cons_self
  simp only [ends_record, ends_getSlots, halive₂, if_true, ends_bind, ends_lift, ends_modifySlots]
  -- then it is put back, and freed
  generalize hs₃ : ({ w₂.stack with depth := w₂.stack.depth - 1 } : Slots H).update id
    (fun e => { e with layer := some layer' }) = s₃
  have hsound₃ : s₃.Sound [] := hs₃ ▸ hran.sound.leave List.not_mem_nil layer'
  have hk₃ : Known s₃ id [y] := by
    rw [← hs₃]
    exact Known.update (fun z hz ez hez => hk z hz ez hez) fun _ => rfl
  have halive₃ : s₃.isAlive id = true := by
    rw [← hs₃]
    exact isAlive_update.trans halive₂
  refine (hfree [] id { w₂ with stack := s₃ } hsound₃ (clear_nil _ _) halive₃).mono ?_
  intro _ u w₄ hfreed
  rw [ends_pure]
  refine ⟨hfreed.gone, ?_, by simp [hmem]⟩
  exact (hk₃.shrinks hfreed.shrinks).dead hfreed.sound.toLinked hfreed.gone List.mem_cons_self

theorem deliver_cut (hA : Modest A) (hsilent : Silent A) (hfree : Frees free) (hhush : ∀ x, Hushed 0 (free x))
    (hs : w.stack.Sound []) (h : Shaking w.stack id y e l) :
    Ends (deliver b A free ⟨y, .eof, .resolve⟩) w fun _ t w' =>
      Severed id y e.callbacks.err t w'.stack ∧ Moved w.stack t w'.stack := by
  obtain ⟨ey, hey, hout⟩ := outer?_eq_some.1 ((hs.agree id y).1 (inner?_eq_some.2 ⟨e, h.here, h.inner⟩))
  unfold deliver deliverToLayer
  simp only [ends_bind, ends_lift, ends_lookup, hey, hout]
  refine (withLayer_cut hA hsilent hfree hhush hs h).mono fun v t w' hcut => ?_
  obtain ⟨hsevered, hhandled⟩ := hcut
  rw [ends_pure, List.nil_append, List.append_nil]
  exact ⟨hsevered, hhandled.moved⟩

/-- The next event to be delivered, before those of `rest`, is the end of the stream below a layer that still shakes
hands; `t₀` is the record so far. -/
structure Cut (s : Slots H) (id y : Handle) (e : Entry H) (l : Tls.Layer H.Source H.Engine) (rest : List (Queued H))
    (t₀ : List (Mark H)) : Prop extends Shaking s id y e l where
  sound : s.Sound []
  pumping : s.pumping = true
  next : s.queue = ⟨y, .eof, .resolve⟩ :: rest
  record : Chronicle id t₀ s

/-- A world in which other events wait. -/
def awaiting (w : World H) (queue : List (Queued H)) : World H := { w with stack := { w.stack with queue } }

/-- A connection is lost at once, which is all that is heard of it: `u` is recorded while that event is delivered, `v`
while all others are. -/
structure Lost (id y : Handle) (err : Option H.Code) (t₀ u v : List (Mark H)) (s₁ s' : Slots H) : Prop
    extends Severed id y err u s₁ where
  stays : s'.isAlive id = false
  unheard : ∀ alive call, .called id alive call ∉ u ++ v
  told : ∀ code, err = some code → Mark.noticesOf id (t₀ ++ (u ++ v)) = [(id, .closed, code)]

open Mark in
/-- Events are delivered, the first of which is the end of the stream of `y`, until none is left: `id` is lost by it. A
connection is known by its handle, which must not have been given out twice. -/
def Severs (b : Behaviour H) (k n : Nat) (id y : Handle) (err : Option H.Code) (rest : List (Queued H))
    (t₀ : List (Mark H)) (w : World H) : Prop :=
  Ends (drain b (exec b k) (freeEntry b (exec b k) k) (n + 1)) w fun _ t w' => (births (t₀ ++ t)).count id ≤ 1 →
    ∃ u v w₁, t = u ++ v ∧
      deliver b (exec b k) (freeEntry b (exec b k) k) ⟨y, .eof, .resolve⟩ (awaiting w rest) = .ok ((), u) w₁ ∧
      drain b (exec b k) (freeEntry b (exec b k) k) n w₁ = .ok ((), v) w' ∧
      Lost id y err t₀ u v w₁.stack w'.stack

open Mark in
/-- **The end of the stream comes before the handshake is done**, and then all other events are delivered. -/
theorem drain_cut {k n : Nat} {rest : List (Queued H)} (h : Cut w.stack id y e l rest t₀) :
    Severs b k n id y e.callbacks.err rest t₀ w := by
  have hA : Orderly (exec b k) := exec_orderly k
  have hfree : Frees (freeEntry b (exec b k) k) := freeEntry_frees hA.toModest k
  unfold Severs
  rw [drain]
  simp only [ends_bind, ends_lift, ends_getSlots, h.next, ends_modifySlots]
  rintro ⟨⟨⟩, u⟩ w₁ hdeliver ⟨⟨⟩, v⟩ w₂ hdrain hid
  simp only [List.nil_append] at hid ⊢
  -- the event is delivered, and the connection gone
  have hshaking : Shaking (awaiting w rest).stack id y e l := ⟨h.here, h.layer, h.phase, h.top, h.inner⟩
  obtain ⟨hsevered, hmoved⟩ := deliver_cut (w := awaiting w rest) hA.toModest
    (exec_silent k) hfree (freeEntry_hushed (exec_silent k) k) (h.sound.of_same rfl rfl rfl rfl) hshaking _ _ hdeliver
  have hbegin : Keeps w.stack [] (awaiting w rest).stack := by
    refine .of_same (fun _ => rfl) ?_
    unfold outstanding
    rw [h.next]
    rfl
  -- then all others
  obtain ⟨hrest, hqueue⟩ := drain_ends hA hfree n hmoved.sound (hmoved.pumping.trans h.pumping) _ _ hdrain
  have hfirst : Chronicle id (t₀ ++ u) w₁.stack := by
    refine hbegin.trans hmoved.keeps id t₀ (Nat.le_trans ?_ hid) h.record
    rw [List.nil_append, ← List.append_assoc, births_append _ v, List.count_append]
    exact Nat.le_add_right _ _
  have hall : Chronicle id (t₀ ++ (u ++ v)) w₂.stack := (hbegin.trans (hmoved.keeps.trans hrest.keeps)) id t₀ hid h.record
  have hword := hall.lastWord hqueue
  have hfreed : .freed id ∈ t₀ ++ u := hfirst.ended _ _ (List.mem_append_right _ hsevered.ended)
  refine ⟨u, v, w₁, rfl, hdeliver, hdrain, hsevered, ?_, ?_, ?_⟩
  · exact (hall.freed (by rw [← List.append_assoc]; exact List.mem_append_left _ hfreed)).2
  · -- at first nobody is called, and then it is gone
    intro alive call hmem
    rcases List.mem_append.1 hmem with hmem | hmem
    · have hcalls := hsevered.silent _ hmem
      cases hcalls
    · have hlast := hall.last
      rw [← List.append_assoc] at hlast
      exact (List.pairwise_append.1 hlast).2.2 _ hfreed _ hmem rfl alive call rfl
  · intro code herr
    have hended := hsevered.ended
    rw [herr] at hended
    exact hword.ended _ _ (List.mem_append_right _ (List.mem_append_left _ hended))

end Recorded

/-! ## The gate -/

namespace Tls

/-- **The gate of the handshake.** Whatever a new layer is called with, in any order and with any answers: the receiver
is told once at most that the connection is there, if it has begun an active open, when the engine reports that the
handshake is done, and before any plaintext; and until then no plaintext is handed up, and none is accepted. If the layer
still shakes hands when the connection below comes to its end, both connections are gone before anybody is called; of
this connection nothing is heard any more but that it is closed, if there is a callback for that. -/
theorem Life.gated {l₀ : Layer H.Source H.Engine} {h : List (Call H)} (hl : Life b.engine y id l₀ h l)
    (hp : l₀.phase = .handshaking) (hc : l₀.connecting = false) (hs : l₀.Sound) :
    Gated b.engine y h ∧ ∀ [IsEmpty H.Layer] (k n : Nat) (w : World H) (e : Entry H) (rest : List (Queued H))
      (t₀ : List (Mark H)), Recorded.Cut w.stack id y e l rest t₀ →
        Recorded.Severs b k n id y e.callbacks.err rest t₀ w :=
  ⟨(hl.guarded hp hc hs).gated, fun _ _ _ _ _ _ => Recorded.drain_cut⟩

/-! An active open whose peer closes when it has seen the first flight. -/

/-- Everything succeeds around a client. -/
def welcoming : (r : Conduit.Layer.Req Stack.parley) → r.Ans
  | .inner => some Stack.caller.tcp
  | .ask _ o => Toy.obligingOp o
  | .pcb _ o => Toy.obligingPcb o
  | .emit _ | .release | .fail _ | .note _ | .setShared _ | .shared => ()
  | .pollInterval => 0
  | .cover inner _ => .ok inner
  | .newEngine _ _ => .ok Toy.young

/-- A client that has not connected yet. -/
def hopeful : Layer Unit Toy.Engine where
  config := { isServer := false, options := {}, source := () }

/-- It connects, and the connection below is there. -/
def overture : List Method := [.op (.connect ⟨.v4 127 0 0 1, 443, 0⟩), .op (.lower (.connected (.ok ())))]

/-- The client when it has sent its first flight. -/
def waiting : Layer Unit Toy.Engine :=
  (played (H := Stack.parley) Toy.ops Stack.caller.tls welcoming overture hopeful).2

theorem waiting_life : Life (H := Stack.parley) Toy.ops Stack.caller.tcp Stack.caller.tls hopeful
    (played Toy.ops Stack.caller.tls welcoming overture hopeful).1 waiting :=
  List.nil_append (played (H := Stack.parley) Toy.ops Stack.caller.tls welcoming overture hopeful).1 ▸
    Life.of_played rfl .start (by simp) (by decide +kernel)

/-- It is put above a connection, with a callback for its end. -/
def raise : Stack.Act Stack.parley Unit :=
  .ask .newPcb fun i =>
  .ask (.openPcb (.loopback i)) fun lower =>
  .ask (.wrap lower (.secure waiting)) fun _ =>
  .ask (.register Stack.caller.tls .err []) fun _ => .done ()

/-- What comes of that. -/
def raised : EStateM.Result Halt (World Stack.parley) (Unit × List (Mark Stack.parley)) :=
  Recorded.run Stack.parleying 20 raise { shared := (), memory := () }

/-- The world that a run leaves. -/
def worldOf {α : Type} : EStateM.Result Halt (World H) α → World H
  | .ok _ w => w
  | .error _ w => w

/-- Now the connection below comes to its end. -/
def closing : World Stack.parley :=
  { worldOf raised with
    stack := { (worldOf raised).stack with queue := [⟨Stack.caller.tcp, .eof, .resolve⟩], pumping := true } }

theorem closing_cut : Recorded.Cut closing.stack Stack.caller.tls Stack.caller.tcp
    { layer := some (.secure waiting), name := "tls", inner := some Stack.caller.tcp, callbacks := { err := some [] } }
    waiting [] (Stack.recordOf raised) := by
  have hcarried := Recorded.run_ends (b := Stack.parleying) (w := { shared := (), memory := () }) 20 raise idle_empty _ _
    (rfl : raised = .ok ((), Stack.recordOf raised) (worldOf raised))
  have hkeeps : Keeps (worldOf raised).stack [] closing.stack := .of_same (fun _ => rfl) rfl
  have hrecord : Chronicle Stack.caller.tls (Stack.recordOf raised) (worldOf raised).stack :=
    hcarried.keeps _ [] (by decide +kernel) (chronicle_empty _)
  exact ⟨⟨rfl, rfl, rfl, rfl, rfl⟩, hcarried.sound.of_same rfl rfl rfl rfl, rfl, rfl,
    by simpa using hkeeps _ _ (by decide +kernel) hrecord⟩

theorem Life.gated_severed :
    Gated (H := Stack.parley) Toy.ops Stack.caller.tcp
        (played Toy.ops Stack.caller.tls welcoming overture hopeful).1 ∧
      ∃ u v, ∃ w₁ w' : World Stack.parley, Recorded.drain Stack.parleying (Recorded.exec Stack.parleying 20)
          (Recorded.freeEntry Stack.parleying (Recorded.exec Stack.parleying 20) 20) 20 closing = .ok ((), u ++ v) w' ∧
        Recorded.Lost Stack.caller.tls Stack.caller.tcp (some []) (Stack.recordOf raised) u v w₁.stack w'.stack := by
  obtain ⟨hgated, hcut⟩ := Life.gated (b := Stack.parleying) waiting_life rfl rfl (by rintro s ⟨⟩)
  refine ⟨hgated, ?_⟩
  have hreaches : Exec.reaches (Recorded.drain Stack.parleying (Recorded.exec Stack.parleying 20)
      (Recorded.freeEntry Stack.parleying (Recorded.exec Stack.parleying 20) 20) 20) closing
      (fun r _ => (Mark.births (Stack.recordOf raised ++ r.2)).count Stack.caller.tls ≤ 1) = true := by decide +kernel
  obtain ⟨⟨_, t⟩, w', hrun, hcount⟩ := Exec.exists_of_reaches hreaches
  obtain ⟨u, v, w₁, rfl, -, -, hlost⟩ := hcut 20 19 closing _ _ _ closing_cut _ w' hrun (of_decide_eq_true hcount)
  exact ⟨u, v, w₁, w', hrun, hlost⟩

end Tls

end Conduit
