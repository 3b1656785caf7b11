import Conduit.Proofs.Layer.Sends
import Conduit.Proofs.Stack.Orderly

/-!
# Chains of connections

An application sees the uppermost of several connections that stand on one another, the lowest of which is over an
endpoint of a TCP engine. What it asks of the uppermost goes down the chain.

* `Slots.Chain`: connections that stand on one another.
* `Slots.Refitted`, `Slots.Cleared`: the layers of a chain have changed, the chain has gone.
* `Stack.exec_sends`: sending through a chain changes its layers at most.
* `Stack.exec_close`: **closing a chain does away with all of it, or with nothing**.
-/

namespace Conduit

open Exec

variable {H : Host} {b : Behaviour H}

/-! ## Chains -/

namespace Slots

variable {s s' s'' : Slots H} {id i x : Handle} {hs : List Handle} {e : Entry H}

/-- Connections that stand on one another: each on the next, and the last over an endpoint of a TCP engine. -/
inductive Chain (s : Slots H) : List Handle → Prop
  | ground {id : Handle} {e : Entry H} {l : Plain H.Pcb} (he : s.find? id = some e) (hl : e.layer = some (.plain l))
    (hi : e.inner = none) : Chain s [id]
  | secure {id i : Handle} {hs : List Handle} {e : Entry H} {l : Tls.Layer H.Source H.Engine} (he : s.find? id = some e)
    (hl : e.layer = some (.secure l)) (hi : e.inner = some i) (h : Chain s (i :: hs)) : Chain s (id :: i :: hs)
  | passthrough {id i : Handle} {hs : List Handle} {e : Entry H} {name : String} (he : s.find? id = some e)
    (hl : e.layer = some (.passthrough name)) (hi : e.inner = some i) (h : Chain s (i :: hs)) : Chain s (id :: i :: hs)

/-- No connection of `hs` is there twice, each refers to the one that stands on it, and that is another. -/
structure Upright (s : Slots H) (hs : List Handle) : Prop where
  nodup : hs.Nodup
  outer : ∀ x ∈ hs, ∀ y ∈ hs, s.inner? x = some y → s.outer? y = some x
  apart : ∀ x ∈ hs, s.outer? x ≠ some x

theorem Upright.tail (h : s.Upright (id :: hs)) : s.Upright hs :=
  ⟨h.nodup.of_cons, fun x hx y hy => h.outer x (List.mem_cons_of_mem _ hx) y (List.mem_cons_of_mem _ hy),
    fun x hx => h.apart x (List.mem_cons_of_mem _ hx)⟩

theorem Upright.not_mem (h : s.Upright (id :: hs)) : id ∉ hs := (List.nodup_cons.1 h.nodup).1

/-- The first of a chain stands on the second. -/
theorem Upright.outer_next (h : s.Upright (id :: i :: hs)) (he : s.find? id = some e) (hi : e.inner = some i) :
    s.outer? i = some id :=
  h.outer id List.mem_cons_self i (List.mem_cons_of_mem _ List.mem_cons_self) (inner?_eq_some.2 ⟨e, he, hi⟩)

/-- A chain depends on its own connections only. -/
theorem Chain.congr (h : s.Chain hs) (hf : ∀ x ∈ hs, s'.find? x = s.find? x) : s'.Chain hs := by
  induction h with
  | ground he hl hi => exact .ground ((hf _ List.mem_cons_self).trans he) hl hi
  | secure he hl hi _ ih =>
    exact .secure ((hf _ List.mem_cons_self).trans he) hl hi (ih fun x hx => hf x (List.mem_cons_of_mem _ hx))
  | passthrough he hl hi _ ih =>
    exact .passthrough ((hf _ List.mem_cons_self).trans he) hl hi (ih fun x hx => hf x (List.mem_cons_of_mem _ hx))

theorem Upright.congr (h : s.Upright hs) (hi : ∀ x ∈ hs, s'.inner? x = s.inner? x)
    (ho : ∀ x ∈ hs, s'.outer? x = s.outer? x) : s'.Upright hs :=
  ⟨h.nodup, fun x hx y hy hxy => (ho y hy).trans (h.outer x hx y hy ((hi x hx).symm.trans hxy)),
    fun x hx hc => h.apart x hx ((ho x hx).symm.trans hc)⟩

/-- Everything in a chain is below its first connection. -/
theorem Chain.all_below (h : s.Chain (id :: hs)) : ∀ x ∈ id :: hs, s.Below id x := by
  generalize hg : id :: hs = all at h
  induction h generalizing id hs with
  | ground =>
    cases hg
    intro x hx
    rw [List.mem_singleton] at hx
    rw [hx]
    exact .refl
  | secure he _ hi _ ih | passthrough he _ hi _ ih =>
    cases hg
    intro x hx
    rcases List.mem_cons.1 hx with rfl | hx
    · exact .refl
    · exact (ih rfl x hx).head (inner?_eq_some.2 ⟨_, he, hi⟩)

theorem Chain.nodup (h : s.Chain hs) (hl : s.Linked) : hs.Nodup := by
  induction h with
  | ground => simp
  | secure he _ hi h ih | passthrough he _ hi h ih =>
    -- no connection is below itself
    exact List.nodup_cons.2 ⟨fun hmem =>
      hl.acyclic _ (.head' (inner?_eq_some.2 ⟨_, he, hi⟩) (h.all_below _ hmem)), ih⟩

theorem Chain.upright (h : s.Chain hs) (hl : s.Linked) : s.Upright hs :=
  ⟨h.nodup hl, fun x _ y _ hxy => (hl.agree x y).1 hxy, fun x _ hc => hl.acyclic x (.single ((hl.agree x x).2 hc))⟩

/-- Every connection of a chain is there. -/
theorem Chain.isAlive (h : s.Chain hs) : ∀ x ∈ hs, s.isAlive x = true := by
  induction h with
  | ground he =>
    intro x hx
    rw [List.mem_singleton] at hx
    exact isAlive_iff.2 ⟨_, hx ▸ he⟩
  | secure he _ _ _ ih | passthrough he _ _ _ ih =>
    intro x hx
    rcases List.mem_cons.1 hx with rfl | hx
    · exact isAlive_iff.2 ⟨_, he⟩
    · exact ih x hx

/-- Layers of one kind, as far as they may be in a chain. -/
inductive OfAKind : Layer H → Layer H → Prop
  | plain (l l' : Plain H.Pcb) : OfAKind (.plain l) (.plain l')
  | secure (l l' : Tls.Layer H.Source H.Engine) : OfAKind (.secure l) (.secure l')
  | passthrough (name name' : String) : OfAKind (.passthrough name) (.passthrough name')

/-- A chain may begin with another layer of the same kind. -/
theorem Chain.refit {l l' : Layer H} (h : s.Chain (id :: hs)) (he : s.find? id = some e) (hl : e.layer = some l)
    (hk : OfAKind l l') (he' : s'.find? id = some { e with layer := some l' }) (hc : s.Chain hs → s'.Chain hs) :
    s'.Chain (id :: hs) := by
  cases h with
  | ground hf hl₀ hi =>
    cases he.symm.trans hf
    cases hl₀.symm.trans hl
    cases hk
    exact .ground he' rfl hi
  | secure hf hl₀ hi h =>
    cases he.symm.trans hf
    cases hl₀.symm.trans hl
    cases hk
    exact .secure he' rfl hi (hc h)
  | passthrough hf hl₀ hi h =>
    cases he.symm.trans hf
    cases hl₀.symm.trans hl
    cases hk
    exact .passthrough he' rfl hi (hc h)

/-- The first connection of a chain has a layer, and the rest of the chain is what it stands on. -/
theorem Chain.uncons (h : s.Chain (id :: hs)) : ∃ e layer, s.find? id = some e ∧ e.layer = some layer ∧
    OfAKind layer layer ∧ ∀ i, e.inner = some i → s.Chain hs ∧ ∃ t, hs = i :: t := by
  cases h with
  | ground he hl hi =>
    refine ⟨_, _, he, hl, .plain _ _, fun i hi' => ?_⟩
    cases hi.symm.trans hi'
  | secure he hl hi h =>
    refine ⟨_, _, he, hl, .secure _ _, fun i hi' => ?_⟩
    cases hi.symm.trans hi'
    exact ⟨h, _, rfl⟩
  | passthrough he hl hi h =>
    refine ⟨_, _, he, hl, .passthrough _ _, fun i hi' => ?_⟩
    cases hi.symm.trans hi'
    exact ⟨h, _, rfl⟩

/-! ## What becomes of them -/

/-- The layers of a chain have changed, and nothing else. -/
structure Refitted (hs : List Handle) (s s' : Slots H) : Prop where
  chain : s.Chain hs → s'.Chain hs
  kept : ∀ x, (s'.find? x).map bare = (s.find? x).map bare
  rest : ∀ x ∉ hs, s'.find? x = s.find? x
  queue : s'.queue = s.queue
  depth : s'.depth = s.depth
  pumping : s'.pumping = s.pumping

theorem Refitted.refl (hs : List Handle) (s : Slots H) : Refitted hs s s := ⟨id, fun _ => rfl, fun _ _ => rfl, rfl, rfl, rfl⟩

theorem Refitted.trans (h : Refitted hs s s') (h' : Refitted hs s' s'') : Refitted hs s s'' :=
  ⟨fun hc => h'.chain (h.chain hc), fun x => (h'.kept x).trans (h.kept x),
    fun x hx => (h'.rest x hx).trans (h.rest x hx), h'.queue.trans h.queue, h'.depth.trans h.depth,
    h'.pumping.trans h.pumping⟩

/-- The links of a connection are not in its layer. -/
theorem links_of_bare (h : (s'.find? x).map bare = (s.find? x).map bare) :
    s'.inner? x = s.inner? x ∧ s'.outer? x = s.outer? x := by
  unfold inner? outer?
  cases hx : s.find? x <;> cases hx' : s'.find? x <;> rw [hx, hx'] at h
  · exact ⟨rfl, rfl⟩
  · cases h
  · cases h
  · rename_i e e'
    have hb : bare e' = bare e := Option.some.inj h
    have hi : (bare e').inner = (bare e).inner := by rw [hb]
    have ho : (bare e').outer = (bare e).outer := by rw [hb]
    exact ⟨hi, ho⟩

theorem Refitted.upright (h : Refitted hs s s') (hu : s.Upright hs) : s'.Upright hs :=
  hu.congr (fun x _ => (links_of_bare (h.kept x)).1) fun x _ => (links_of_bare (h.kept x)).2

/-- A connection whose neighbour below goes. -/
def losing (id : Handle) (e : Entry H) : Entry H := if e.inner = some id then { e with inner := none } else e

/-- A chain has gone; whatever stood on it has lost it. -/
structure Cleared (id : Handle) (hs : List Handle) (s s' : Slots H) : Prop where
  gone : ∀ x ∈ id :: hs, s'.find? x = none
  above : ∀ o ∉ id :: hs, s.outer? id = some o → s'.find? o = (s.find? o).map (losing id)
  rest : ∀ x ∉ id :: hs, s.outer? id ≠ some x → s'.find? x = s.find? x
  queue : s'.queue = s.queue
  depth : s'.depth = s.depth
  pumping : s'.pumping = s.pumping

/-- Whoever is asked leaves no event to be delivered: none waits, or another will come to those that do. -/
def Quiet (s : Slots H) : Prop := 0 < s.depth ∨ s.pumping = true ∨ s.queue = []

theorem Idle.quiet (h : s.Idle) : s.Quiet := by
  cases hp : s.pumping with
  | true => exact .inr (.inl hp)
  | false => exact .inr (.inr (h.settled hp))

theorem find?_away : (s.away id).find? x = if x = id then (s.find? id).map bare else s.find? x :=
  find?_update (s := s) (f := bare)

theorem find?_away_self (he : s.find? id = some e) : (s.away id).find? id = some (bare e) := by
  rw [find?_away, if_pos rfl, he]
  rfl

theorem isAlive_away (he : s.find? id = some e) : (s.away id).isAlive id = true :=
  isAlive_iff.2 ⟨bare e, find?_away_self he⟩

theorem find?_back {l : Layer H} :
    (s.back id l).find? x = if x = id then (s.find? id).map fun e => { e with layer := some l } else s.find? x :=
  find?_update (s := ({ s with depth := s.depth - 1 } : Slots H))

/-- What a connection with its layer put back is. -/
theorem find?_refit {l : Layer H} (he : s.find? id = some e) (hn : id ∉ hs) (h : Refitted hs (s.away id) s') :
    s'.find? id = some (bare e) ∧ (s'.back id l).find? id = some { e with layer := some l } := by
  have hid : s'.find? id = some (bare e) := by
    rw [h.rest id hn]
    exact find?_away_self he
  refine ⟨hid, ?_⟩
  rw [find?_back, if_pos rfl, hid]
  rfl

/-- A connection stands on a chain that has been refitted. -/
theorem Refitted.refit {l : Layer H} (he : s.find? id = some e) (hn : id ∉ hs) (h : Refitted hs (s.away id) s')
    (hc : s.Chain (id :: hs) → (s'.back id l).Chain (id :: hs)) : Refitted (id :: hs) s (s'.back id l) := by
  obtain ⟨-, hback⟩ := find?_refit (l := l) he hn h
  refine ⟨hc, fun x => ?_, fun x hx => ?_, h.queue, ?_, h.pumping⟩
  · by_cases hx : x = id
    · rw [hx, hback, he]
      rfl
    · rw [find?_back, if_neg hx, h.kept x, find?_away, if_neg hx]
  · rw [List.mem_cons, not_or] at hx
    rw [find?_back, if_neg hx.1, h.rest x hx.2, find?_away, if_neg hx.1]
  · show s'.depth - 1 = s.depth
    rw [h.depth]
    rfl

/-- A chain below a connection is where it was when the layer of that connection is away, or back. -/
theorem Chain.away (h : s.Chain hs) (hn : id ∉ hs) : (s.away id).Chain hs :=
  h.congr fun x hx => by
    have hne : x ≠ id := fun hc => hn (hc ▸ hx)
    rw [find?_away, if_neg hne]

theorem Chain.back {l : Layer H} (h : s.Chain hs) (hn : id ∉ hs) : (s.back id l).Chain hs :=
  h.congr fun x hx => by
    have hne : x ≠ id := fun hc => hn (hc ▸ hx)
    rw [find?_back, if_neg hne]

/-- Links do not change when a layer is away. -/
theorem bare_away (x : Handle) : ((s.away id).find? x).map bare = (s.find? x).map bare := by
  rw [find?_away]
  split
  · rename_i hx
    rw [hx]
    cases s.find? id <;> rfl
  · rfl

theorem outer?_away (x : Handle) : (s.away id).outer? x = s.outer? x := (links_of_bare (bare_away x)).2

theorem Upright.away (h : s.Upright hs) : (s.away id).Upright hs :=
  h.congr (fun x _ => (links_of_bare (bare_away x)).1) fun x _ => outer?_away x

theorem Refitted.quiet (h : Refitted hs s s') (hq : s.Quiet) : s'.Quiet := by
  unfold Quiet at hq ⊢
  rwa [h.depth, h.pumping, h.queue]

end Slots

/-! ## Asking a connection -/

/-- A farewell sends nothing, and no more. -/
theorem Program.Still.sends {α : Type} {inner : Option Handle} {p : Program (Layer.io H) α} (h : p.Still) :
    p.Sends inner := by
  induction p with
  | done a => trivial
  | ask r next ih =>
    cases r with
    | pcb => exact fun x => ih x (h x)
    | note => exact ih _ h
    | _ => cases h

namespace Stack

open Slots

variable {w : World H} {A : Answers H} {free : Handle → Exec H Unit} {id i : Handle} {hs : List Handle} {e : Entry H}

/-- A method runs in its connection's slot, and lets the connection go afterwards, or does not. -/
theorem ends_withLayer {m : Method} {layer : Layer H} {post : Except Fault m.Reply → World H → Prop}
    (he : w.stack.find? id = some e) (hl : e.layer = some layer)
    (h : Ends ((runMethod b A id m layer).run false) { w with stack := w.stack.away id } fun r w' =>
      w'.stack.isAlive id = true ∧
        Ends (if r.2 then free id else pure ()) { w' with stack := w'.stack.back id r.1.1 } fun _ w'' =>
          post (.ok r.1.2) w'') :
    Ends (withLayer b A free id m) w post := by
  unfold withLayer
  simp only [ends_bind, ends_lookup, he, hl, ends_modifySlots]
  refine h.mono ?_
  rintro r w' ⟨ha, hfree⟩
  have ha' : ({ w'.stack with depth := w'.stack.depth - 1 } : Slots H).isAlive id = true := ha
  simp only [ends_bind, ends_modifySlots, ends_getSlots, ha', if_true]
  cases hr : r.2 with
  | true =>
    rw [hr] at hfree
    simp only [if_true, ends_bind, ends_pure]
    exact hfree
  | false =>
    rw [hr] at hfree
    simp only [Bool.false_eq_true, if_false, ends_pure] at hfree ⊢
    exact hfree

/-- Where no event is to be delivered, none is. -/
theorem ends_pump {k : Nat} {post : Unit → World H → Prop} (hq : w.stack.Quiet) (h : post () w) :
    Ends (pump b A free k) w post := by
  unfold pump
  simp only [ends_bind, ends_getSlots]
  split
  · exact (ends_pure _).2 h
  · rename_i hidle
    simp only [Bool.or_eq_true, decide_eq_true_eq, not_or, Bool.not_eq_true] at hidle
    have hqueue : w.stack.queue = [] := by
      rcases hq with hd | hp | hqueue
      · exact absurd hd hidle.1
      · rw [hp] at hidle
        cases hidle.2
      · exact hqueue
    simp only [ends_bind, ends_modifySlots]
    cases k with
    | zero =>
      unfold drain
      exact ends_throw _
    | succ k =>
      unfold drain
      simp only [ends_bind, ends_getSlots, hqueue, ends_pure]
      obtain ⟨⟨slots, free, queue, depth, pumping, live⟩, net, shared, memory⟩ := w
      cases hidle.2
      cases hqueue
      exact h

/-- An operation that needs no more than the method of its layer. -/
theorem ends_call {k : Nat} {o : Op} {layer : Layer H} {post : o.Reply → World H → Prop}
    (he : w.stack.find? id = some e) (hl : e.layer = some layer)
    (h : Ends ((runMethod b A id (.op o) layer).run false) { w with stack := w.stack.away id } fun r w' =>
      w'.stack.isAlive id = true ∧
        Ends (if r.2 then free id else pure ()) { w' with stack := w'.stack.back id r.1.1 } fun _ w'' =>
          w''.stack.Quiet ∧ post r.1.2 w'') :
    Ends (call b A free k id o) w post := by
  unfold call
  refine (ends_bind _ _).2 (ends_withLayer he hl (h.mono fun r w' hran => ⟨hran.1, hran.2.mono ?_⟩))
  rintro _ w'' ⟨hq, hpost⟩
  exact (ends_bind _ _).2 (ends_pump hq ((ends_pure _).2 hpost))

/-- A layer at work, whose state is then put away. -/
theorem ends_run_map {α β : Type} {m : Running H α} {g : α → β} {flag : Bool} {P : β × Bool → World H → Prop}
    (h : Ends (m.run flag) w fun r w' => P (g r.1, r.2) w') : Ends ((m >>= fun a => pure (g a)).run flag) w P :=
  (ends_run_bind _ _).2 (h.mono fun _ _ hp => (ends_run_pure _).2 hp)

/-! ## Sending -/

/-- A layer that does no more than send leaves what is below with other layers at most. -/
theorem sends_ends {α : Type} {p : Program (Layer.io H) α} {flag : Bool} (hp : p.Sends e.inner)
    (hA : ∀ i, e.inner = some i → ∀ o, o.sends = true → ∀ w : World H, w.stack.Chain hs → w.stack.Quiet →
      Ends (A (.ask i o)) w fun _ w' => Refitted hs w.stack w'.stack)
    (he : w.stack.find? id = some e) (hn : id ∉ hs) (hc : ∀ i, e.inner = some i → w.stack.Chain hs)
    (hq : w.stack.Quiet) :
    Ends ((p.run (answerLayer b A id)).run flag) w fun r w' => r.2 = flag ∧ Refitted hs w.stack w'.stack := by
  induction p generalizing w with
  | done a => exact (ends_run_pure a).2 ⟨rfl, .refl _ _⟩
  | ask r next ih =>
    rw [Program.run_ask]
    refine (ends_run_bind _ _).2 ?_
    -- after a request that leaves the slots as they are
    have hquiet : ∀ (x : (Layer.io H).Ans r) (w' : World H), w'.stack = w.stack → (next x).Sends e.inner →
        Ends (((next x).run (answerLayer b A id)).run flag) w' fun r w' => r.2 = flag ∧ Refitted hs w.stack w'.stack := by
      intro x w' hw hx
      rw [← hw]
      exact ih x hx (hw ▸ he) (hw ▸ hc) (hw ▸ hq)
    cases r with
    | inner =>
      simp only [answerLayer, ends_run_bind, ends_run_lift, ends_lookup, ends_run_pure, he, Option.bind_some]
      exact hquiet _ w rfl hp
    | ask i o =>
      obtain ⟨hi, ho, hnext⟩ := hp
      simp only [answerLayer, ends_run_lift]
      refine (hA i hi o ho w (hc i hi) hq).mono fun x w' h => ?_
      refine (ih x (hnext x) ((h.rest id hn).trans he) (fun j hj => h.chain (hc j hj)) (h.quiet hq)).mono ?_
      exact fun r w'' h' => ⟨h'.1, h.trans h'.2⟩
    | pollInterval =>
      simp only [answerLayer, ends_run_bind, ends_run_lift, ends_lookup, ends_run_pure]
      exact hquiet _ w rfl (hp _)
    | note n =>
      simp only [answerLayer, ends_run_lift, ends_note]
      exact hquiet () _ rfl hp
    | pcb p o =>
      simp only [answerLayer, ends_run_lift]
      exact (Recorded.ends_performPcb p o).mono fun x w' hw => hquiet x w' hw (hp x)
    | newEngine config name =>
      simp only [answerLayer, ends_run_lift]
      exact (Recorded.ends_newEngine config name).mono fun x w' hw => hquiet x w' hw (hp x)
    | shared =>
      intro p w' hrun
      cases hrun
      exact hquiet _ w rfl (hp _)
    | setShared v =>
      intro p w' hrun
      cases hrun
      exact hquiet () _ rfl hp
    | emit | release | fail | cover => cases hp

/-- Each kind of layer sends through what is below, and stays what it is. -/
theorem runMethod_sends {layer : Layer H} {o : Op} (ho : o.sends = true) (hk : OfAKind layer layer)
    (hA : ∀ i, e.inner = some i → ∀ o, o.sends = true → ∀ w : World H, w.stack.Chain hs → w.stack.Quiet →
      Ends (A (.ask i o)) w fun _ w' => Refitted hs w.stack w'.stack)
    (he : w.stack.find? id = some e) (hn : id ∉ hs) (hc : ∀ i, e.inner = some i → w.stack.Chain hs)
    (hq : w.stack.Quiet) :
    Ends ((runMethod b A id (.op o) layer).run false) w fun r w' =>
      r.2 = false ∧ OfAKind layer r.1.1 ∧ Refitted hs w.stack w'.stack := by
  cases hk with
  | plain l =>
    refine ends_run_map ((sends_ends (Plain.step_sends id ho l) hA he hn hc hq).mono ?_)
    exact fun r w' h => ⟨h.1, .plain _ _, h.2⟩
  | secure l =>
    refine ends_run_map ((sends_ends (Secure.step_sends ho l) hA he hn hc hq).mono ?_)
    exact fun r w' h => ⟨h.1, .secure _ _, h.2⟩
  | passthrough name =>
    refine ends_run_map ((sends_ends (Layer.forward_sends ho ()) hA he hn hc hq).mono ?_)
    exact fun r w' h => ⟨h.1, .passthrough _ _, h.2⟩

/-- **Sending through a chain** leaves it with other layers at most. -/
theorem exec_sends (k : Nat) {o : Op} (ho : o.sends = true) (hc : w.stack.Chain (id :: hs)) (hnodup : (id :: hs).Nodup)
    (hq : w.stack.Quiet) :
    Ends (exec b k (.ask id o)) w fun _ w' => Refitted (id :: hs) w.stack w'.stack := by
  -- what is below the first connection is asked with one step less
  induction k generalizing w id hs o with
  | zero => exact ends_throw _
  | succ k ih =>
    have hcall : exec b (k + 1) (.ask id o) = call b (exec b k) (freeEntry b (exec b k) k) k id o := by
      cases o with
      | write | output | sndbuf => rfl
      | _ => cases ho
    rw [hcall]
    obtain ⟨hn, hnodup'⟩ := List.nodup_cons.1 hnodup
    obtain ⟨e, layer, he, hl, hk, hbelow⟩ := hc.uncons
    have haway : (w.stack.away id).find? id = some (bare e) := find?_away_self he
    refine ends_call he hl ((runMethod_sends (w := { w with stack := w.stack.away id }) (e := bare e) ho hk
      ?_ haway hn (fun i hi => (hbelow i hi).1.away hn) (.inl (Nat.succ_pos _))).mono ?_)
    · intro i hi o ho w hc hq
      obtain ⟨-, t, rfl⟩ := hbelow i hi
      exact ih ho hc hnodup' hq
    · rintro ⟨⟨layer', r⟩, released⟩ w' ⟨rfl, hk', h⟩
      obtain ⟨hfound, hback⟩ := find?_refit (l := layer') he hn h
      have hrefit : Refitted (id :: hs) w.stack (w'.stack.back id layer') :=
        h.refit he hn fun hc => hc.refit he hl hk' hback fun hc' => (h.chain (hc'.away hn)).back hn
      exact ⟨isAlive_iff.2 ⟨_, hfound⟩, (ends_pure _).2 ⟨hrefit.quiet hq, hrefit⟩⟩

/-! ## Freeing -/

theorem runMethod_dealloc {layer : Layer H} (hk : OfAKind layer layer) (he : w.stack.find? id = some e)
    (hi : e.inner = none) (hq : w.stack.Quiet) :
    Ends ((runMethod b A id .dealloc layer).run false) w fun _ w' => Refitted [] w.stack w'.stack := by
  have hends : ∀ {α : Type} {p : Program (Layer.io H) α}, p.Still →
      Ends ((p.run (answerLayer b A id)).run false) w fun _ w' => Refitted [] w.stack w'.stack := by
    intro α p hp
    refine (sends_ends (e := e) hp.sends ?_ he List.not_mem_nil ?_ hq).mono fun _ _ h => h.2
    · intro i hi'
      cases hi.symm.trans hi'
    · intro i hi'
      cases hi.symm.trans hi'
  cases hk with
  | plain l => exact ends_run_map (hends (Plain.dealloc_still id l))
  | secure l => exact ends_run_map (hends (Secure.dealloc_still b.engine id l))
  | passthrough name => exact ends_run_map (hends (Layer.forward_dealloc_still ()))

/-- **A connection that stands on none is freed**, and whatever stands on it has lost it. -/
theorem freeEntry_lone (k : Nat) {layer : Layer H} (hk : OfAKind layer layer) (he : w.stack.find? id = some e)
    (hl : e.layer = some layer) (hi : e.inner = none) (ho : e.outer ≠ some id) :
    Ends (freeEntry b A k id) w fun _ w' => Cleared id [] w.stack w'.stack := by
  cases k with
  | zero => exact ends_throw _
  | succ k =>
    unfold freeEntry dealloc
    simp only [ends_bind, ends_lookup, he, Option.bind_some, hl, ends_modifySlots]
    have haway : (w.stack.away id).find? id = some (bare e) := find?_away_self he
    refine (runMethod_dealloc (w := { w with stack := w.stack.away id }) hk haway hi (.inl (Nat.succ_pos _))).mono ?_
    intro _ w₁ h₁
    have hdepth : w₁.stack.depth - 1 = w.stack.depth := by
      rw [h₁.depth]
      rfl
    -- after the farewell, all others are where they were
    generalize hs₁ : ({ w₁.stack with depth := w₁.stack.depth - 1 } : Slots H) = s₁
    have hfind : ∀ x, s₁.find? x = if x = id then some (bare e) else w.stack.find? x := by
      intro x
      rw [← hs₁]
      refine (h₁.rest x List.not_mem_nil).trans ?_
      rw [find?_away, he]
      rfl
    have hid : s₁.find? id = some (bare e) := by rw [hfind, if_pos rfl]
    have hvacate : ∀ x, (s₁.vacate id).find? x = if x = id then none else w.stack.find? x := by
      intro x
      rw [find?_vacate hid, hfind]
      split <;> rfl
    have hqueue : s₁.queue = w.stack.queue := hs₁ ▸ h₁.queue
    have hpumping : s₁.pumping = w.stack.pumping := hs₁ ▸ h₁.pumping
    have hdepth₁ : s₁.depth = w.stack.depth := hs₁ ▸ hdepth
    have houter : w.stack.outer? id = e.outer := by
      unfold outer?
      rw [he]
      rfl
    simp only [hid, bare, hi]
    cases hout : e.outer with
    | none =>
      simp only [ends_bind, ends_modifySlots, ends_note]
      refine ⟨fun x hx => ?_, fun o _ ho => ?_, fun x hx _ => ?_, hqueue, hdepth₁, hpumping⟩
      · rw [List.mem_singleton] at hx
        rw [hvacate, if_pos hx]
      · rw [houter, hout] at ho
        cases ho
      · rw [List.mem_singleton] at hx
        rw [hvacate, if_neg hx]
    | some o =>
      simp only [ends_bind, ends_modifySlots, ends_note]
      rw [hout] at ho houter
      have hne : o ≠ id := fun hc => ho (hc ▸ rfl)
      refine ⟨fun x hx => ?_, fun o' _ ho' => ?_, fun x hx hx' => ?_, hqueue, hdepth₁, hpumping⟩
      · rw [List.mem_singleton] at hx
        have hxo : x ≠ o := fun hc => hne (hc.symm.trans hx)
        rw [find?_update, if_neg hxo, hvacate, if_pos hx]
      · cases houter.symm.trans ho'
        rw [find?_update, if_pos rfl, hvacate, if_neg hne]
        rfl
      · rw [List.mem_singleton] at hx
        have hxo : x ≠ o := fun hc => hx' (hc ▸ houter)
        rw [find?_update, if_neg hxo, hvacate, if_neg hx]

/-! ## Closing -/

section

variable {σ α β : Type} {l : σ} {flag : Bool} {B : (r : Layer.Req H) → Running H r.Ans}

/-- A layer does one thing, then another. -/
theorem ends_act_bind (x : Layer.Act H σ α) (f : α → Layer.Act H σ β) {post : (β × σ) × Bool → World H → Prop} :
    Ends ((((x >>= f).run l).run B).run flag) w post ↔
      Ends (((x.run l).run B).run flag) w fun r w' => Ends ((((f r.1.1).run r.1.2).run B).run r.2) w' post := by
  rw [StateT.run_bind, Program.run_bind]
  exact ends_run_bind _ _

theorem ends_act_pure (a : α) {post : (α × σ) × Bool → World H → Prop} :
    Ends ((((pure a : Layer.Act H σ α).run l).run B).run flag) w post ↔ post ((a, l), flag) w := ends_run_pure _

theorem ends_act_modify (f : σ → σ) {post : (PUnit × σ) × Bool → World H → Prop} :
    Ends ((((modify f : Layer.Act H σ PUnit).run l).run B).run flag) w post ↔ post ((⟨⟩, f l), flag) w :=
  ends_run_pure (a := (PUnit.unit, f l))

theorem ends_act_get {post : (σ × σ) × Bool → World H → Prop} :
    Ends ((((get : Layer.Act H σ σ).run l).run B).run flag) w post ↔ post ((l, l), flag) w :=
  ends_run_pure (a := (l, l))

theorem ends_act_request (r : Layer.Req H) {post : (r.Ans × σ) × Bool → World H → Prop} :
    Ends ((((Layer.Act.request r : Layer.Act H σ r.Ans).run l).run B).run flag) w post ↔
      Ends ((B r).run flag) w fun x => post ((x.1, l), x.2) := by
  show Ends (((B r) >>= fun x => pure (x, l) : Running H (r.Ans × σ)).run flag) w post ↔ _
  simp only [ends_run_bind, ends_run_pure]

end

section

variable {σ : Type} {l : σ} {flag : Bool}

theorem ends_act_inner {post : (Option Handle × σ) × Bool → World H → Prop} :
    Ends ((((Layer.Act.inner : Layer.Act H σ _).run l).run (answerLayer b A id)).run flag) w post ↔
      post ((w.stack.inner? id, l), flag) w := by
  refine (ends_act_request _).trans ?_
  simp only [answerLayer, ends_run_bind, ends_run_lift, ends_lookup, ends_run_pure]
  rfl

theorem ends_act_ask (i : Handle) (o : Op) {post : (o.Reply × σ) × Bool → World H → Prop} :
    Ends ((((Layer.Act.ask i o : Layer.Act H σ _).run l).run (answerLayer b A id)).run flag) w post ↔
      Ends (A (.ask i o)) w fun x => post ((x, l), flag) := by
  refine (ends_act_request _).trans ?_
  simp only [answerLayer, ends_run_lift]

theorem ends_act_release {post : (Unit × σ) × Bool → World H → Prop} :
    Ends ((((Layer.Act.release : Layer.Act H σ _).run l).run (answerLayer b A id)).run flag) w post ↔
      post (((), l), true) w := (ends_act_request _).trans (ends_pure ((), true))

/-- An operation on an endpoint leaves the slots alone. -/
theorem ends_act_pcb (p : PcbRef H.Pcb) (o : PcbOp) {post : (o.Reply × σ) × Bool → World H → Prop}
    (h : ∀ x w', w'.stack = w.stack → post ((x, l), flag) w') :
    Ends ((((Layer.Act.pcb p o : Layer.Act H σ _).run l).run (answerLayer b A id)).run flag) w post := by
  refine (ends_act_request _).2 ?_
  simp only [answerLayer, ends_run_lift]
  exact (Recorded.ends_performPcb p o).mono h

theorem ends_act_note (n : Note) {post : (Unit × σ) × Bool → World H → Prop}
    (h : ∀ w', w'.stack = w.stack → post (((), l), flag) w') :
    Ends ((((Layer.Act.note n : Layer.Act H σ _).run l).run (answerLayer b A id)).run flag) w post := by
  refine (ends_act_request _).2 ?_
  simp only [answerLayer, ends_run_lift, ends_note]
  exact h _ rfl

end

/-- What is left of a chain once the layer of its first connection has closed what is below: the connection has nothing
below it. -/
structure Stripped (id : Handle) (hs : List Handle) (s s' : Slots H) : Prop where
  own : ∃ e', s'.find? id = some e' ∧ e'.inner = none ∧ s.outer? id = e'.outer
  gone : ∀ x ∈ hs, s'.find? x = none
  rest : ∀ x ∉ id :: hs, s'.find? x = s.find? x
  queue : s'.queue = s.queue
  depth : s'.depth = s.depth
  pumping : s'.pumping = s.pumping

/-- What the layer of a connection leaves when it is asked to close it: all that is below is gone, and the connection is
to be freed; or all is there. -/
def Shut (id : Handle) (hs : List Handle) (layer : Layer H) (s : Slots H) (r : (Layer H × Outcome) × Bool)
    (s' : Slots H) : Prop :=
  OfAKind layer r.1.1 ∧
    match r.1.2 with
    | .ok _ => r.2 = true ∧ Stripped id hs s s'
    | .error _ => r.2 = false ∧ Refitted hs s s'

/-- What is left of a chain that was asked to close: nothing, or all of it. -/
def Closes (id : Handle) (hs : List Handle) (s : Slots H) (r : Outcome) (s' : Slots H) : Prop :=
  match r with
  | .ok _ => Cleared id hs s s'
  | .error _ => Refitted (id :: hs) s s'

theorem Closes.quiet {s s' : Slots H} {r : Outcome} (h : Closes id hs s r s') (hq : s.Quiet) : s'.Quiet := by
  unfold Quiet at hq ⊢
  cases r with
  | ok _ =>
    obtain ⟨-, -, -, hqueue, hdepth, hpumping⟩ := h
    rwa [hqueue, hdepth, hpumping]
  | error f => exact Refitted.quiet h hq

/-- A plain layer closes its endpoint. -/
theorem plain_shut (l : Plain H.Pcb) (he : w.stack.find? id = some e) (hi : e.inner = none) :
    Ends ((runMethod b A id (.op .close) (.plain l)).run false) w fun r w' =>
      Shut id [] (.plain l) w.stack r w'.stack := by
  have hstripped : Stripped id [] w.stack w.stack := by
    refine ⟨⟨e, he, hi, ?_⟩, by simp, fun _ _ => rfl, rfl, rfl, rfl⟩
    unfold outer?
    rw [he]
    rfl
  refine ends_run_map ?_
  show Ends ((((Plain.close id).run l).run (answerLayer b A id)).run false) w _
  unfold Plain.close
  simp only [ends_act_bind, ends_act_get]
  cases l.pcb with
  | none =>
    simp only [ends_act_bind, ends_act_release, ends_act_pure]
    exact ⟨.plain _ _, rfl, hstripped⟩
  | some p =>
    simp only [ends_act_bind]
    refine ends_act_pcb p .detach fun _ w₁ hw₁ => ends_act_pcb p .close fun r w₂ hw₂ => ?_
    have hw : w₂.stack = w.stack := hw₂.trans hw₁
    cases r with
    | ok _ =>
      simp only [ends_act_bind, ends_act_modify, ends_act_release, ends_act_pure]
      exact ⟨.plain _ _, rfl, hw ▸ hstripped⟩
    | error f =>
      -- the endpoint is attached again
      simp only [ends_act_bind]
      refine ends_act_pcb p _ fun _ w₃ hw₃ => (ends_act_request _).2 ?_
      simp only [answerLayer, ends_run_bind, ends_run_lift, ends_lookup, ends_run_pure]
      refine ends_act_pcb p _ fun _ w₄ hw₄ => ends_act_note _ fun w₅ hw₅ => (ends_act_pure _).2 ?_
      rw [hw₅, hw₄, hw₃, hw]
      exact ⟨.plain _ _, rfl, .refl _ _⟩

/-- When what is below a connection has closed, the connection has nothing below it. -/
theorem Cleared.stripped {s s₁ s' : Slots H} (h : Cleared i hs s₁ s') (hs₁ : Refitted (i :: hs) s s₁)
    (he : s.find? id = some e) (hi : e.inner = some i) (hn : id ∉ i :: hs) (ho : s.outer? i = some id) :
    Stripped id (i :: hs) s s' := by
  have hout : s₁.outer? i = some id := (links_of_bare (hs₁.kept i)).2.trans ho
  refine ⟨⟨{ e with inner := none }, ?_, rfl, ?_⟩, h.gone, fun x hx => ?_, h.queue.trans hs₁.queue,
    h.depth.trans hs₁.depth, h.pumping.trans hs₁.pumping⟩
  · rw [h.above id hn hout, hs₁.rest id hn, he]
    simp [losing, hi]
  · unfold outer?
    rw [he]
    rfl
  · rw [List.mem_cons, not_or] at hx
    have hne : s₁.outer? i ≠ some x := fun hc => hx.1 (Option.some.inj (hc.symm.trans hout))
    rw [h.rest x hx.2 hne, hs₁.rest x hx.2]

section

variable (hA : ∀ w : World H, w.stack.Chain (i :: hs) → w.stack.Upright (i :: hs) → w.stack.Quiet →
    Ends (A (.ask i .close)) w fun r w' => Closes i hs w.stack r w'.stack)
  (he : w.stack.find? id = some e) (hi : e.inner = some i) (hn : id ∉ i :: hs) (ho : w.stack.outer? i = some id)
  (hc : w.stack.Chain (i :: hs)) (hu : w.stack.Upright (i :: hs)) (hq : w.stack.Quiet)
include hA he hi hn ho hc hu hq

/-- A TLS layer says goodbye, and closes the connection below. -/
theorem secure_shut (l : Tls.Layer H.Source H.Engine)
    (hsend : ∀ o, o.sends = true → ∀ w : World H, w.stack.Chain (i :: hs) → w.stack.Quiet →
      Ends (A (.ask i o)) w fun _ w' => Refitted (i :: hs) w.stack w'.stack) :
    Ends ((runMethod b A id (.op .close) (.secure l)).run false) w fun r w' =>
      Shut id (i :: hs) (.secure l) w.stack r w'.stack := by
  refine ends_run_map ?_
  show Ends ((((Secure.close b.engine id).run l).run (answerLayer b A id)).run false) w _
  unfold Secure.close
  refine (ends_act_bind _ _).2 ((sends_ends (e := e) (Secure.sendCloseNotify_sends l) ?_ he hn (fun _ _ => hc) hq).mono ?_)
  · intro j hj
    cases hi.symm.trans hj
    exact hsend
  rintro ⟨⟨⟨⟩, l₁⟩, flag⟩ w₁ ⟨rfl, h₁⟩
  have hinner : w₁.stack.inner? id = some i := inner?_eq_some.2 ⟨e, (h₁.rest id hn).trans he, hi⟩
  simp only [ends_act_bind, ends_act_inner, hinner]
  refine (ends_act_ask i .close).2 ((hA w₁ (h₁.chain hc) (h₁.upright hu) (h₁.quiet hq)).mono fun r w₂ h₂ => ?_)
  cases r with
  | error f => exact (ends_act_pure _).2 ⟨.secure _ _, rfl, h₁.trans h₂⟩
  | ok _ =>
    have hstripped := Cleared.stripped h₂ h₁ he hi hn ho
    simp only [ends_act_bind, ends_act_get]
    refine ends_act_note _ fun w₃ hw₃ => ?_
    simp only [ends_act_modify, ends_act_release, ends_act_pure, hw₃]
    exact ⟨.secure _ _, rfl, hstripped⟩

/-- A layer that hands everything on closes the connection below. -/
theorem passthrough_shut (name : String) :
    Ends ((runMethod b A id (.op .close) (.passthrough name)).run false) w fun r w' =>
      Shut id (i :: hs) (.passthrough name) w.stack r w'.stack := by
  refine ends_run_map ?_
  have hinner : w.stack.inner? id = some i := inner?_eq_some.2 ⟨e, he, hi⟩
  simp only [Layer.forward, ends_act_bind, ends_act_inner, hinner]
  refine (ends_act_ask i .close).2 ((hA w hc hu hq).mono fun r w₁ h₁ => ?_)
  cases r with
  | error f => exact (ends_act_pure _).2 ⟨.passthrough _ _, rfl, h₁⟩
  | ok _ =>
    simp only [ends_act_bind, ends_act_release, ends_act_pure]
    exact ⟨.passthrough _ _, rfl, Cleared.stripped h₁ (.refl _ _) he hi hn ho⟩

end

/-- A connection that has nothing below it is freed as the last of its chain. -/
theorem Stripped.cleared {s s₁ s' : Slots H} {l : Layer H} (h : Stripped id hs (s.away id) s₁) (hn : id ∉ hs)
    (ho : s.outer? id ≠ some id) (hc : Cleared id [] (s₁.back id l) s') : Cleared id hs s s' := by
  obtain ⟨e', he', hi', ho'⟩ := h.own
  have houter : s.outer? id = e'.outer := by
    rw [← ho']
    unfold outer?
    rw [find?_away, if_pos rfl]
    cases s.find? id <;> rfl
  have hback : (s₁.back id l).outer? id = s.outer? id := by
    unfold outer?
    rw [find?_back, if_pos rfl, he', ← outer?, houter]
    rfl
  -- another connection, as far as it was not in the chain, is where it was
  have hother : ∀ x ∉ id :: hs, (s₁.back id l).find? x = s.find? x := by
    intro x hx
    have hx' := hx
    rw [List.mem_cons, not_or] at hx'
    rw [find?_back, if_neg hx'.1, h.rest x hx, find?_away, if_neg hx'.1]
  have hsingle : ∀ {x}, x ∉ id :: hs → x ∉ [id] := by
    intro x hx hc
    rw [List.mem_singleton] at hc
    exact hx (hc ▸ List.mem_cons_self)
  refine ⟨fun x hx => ?_, fun o hmem ho => ?_, fun x hx hx' => ?_, hc.queue.trans h.queue, ?_, hc.pumping.trans h.pumping⟩
  · rcases List.mem_cons.1 hx with rfl | hmem
    · exact hc.gone x List.mem_cons_self
    · have hne : x ≠ id := fun heq => hn (heq ▸ hmem)
      have hgone : (s₁.back id l).find? x = none := by
        rw [find?_back, if_neg hne]
        exact h.gone x hmem
      by_cases hout : (s₁.back id l).outer? id = some x
      · rw [hc.above x (by simpa using hne) hout, hgone]
        rfl
      · rw [hc.rest x (by simpa using hne) hout, hgone]
  · rw [hc.above o (hsingle hmem) (hback.trans ho), hother o hmem]
  · rw [hc.rest x (hsingle hx) fun heq => hx' (hback.symm.trans heq), hother x hx]
  · refine hc.depth.trans ?_
    show s₁.depth - 1 = s.depth
    rw [h.depth]
    rfl

/-- **Closing a chain does away with all of it, or with nothing.** -/
theorem exec_close (k : Nat) (hc : w.stack.Chain (id :: hs)) (hu : w.stack.Upright (id :: hs)) (hq : w.stack.Quiet) :
    Ends (exec b k (.ask id .close)) w fun r w' => Closes id hs w.stack r w'.stack := by
  -- what is below the first connection is asked with one step less
  induction k generalizing w id hs with
  | zero => exact ends_throw _
  | succ k ih =>
    show Ends (call b (exec b k) (freeEntry b (exec b k) k) k id .close) w _
    have hn := hu.not_mem
    obtain ⟨e, layer, he, hl, -⟩ := hc.uncons
    have haway : (w.stack.away id).find? id = some (bare e) := find?_away_self he
    have hquiet : (w.stack.away id).Quiet := .inl (Nat.succ_pos _)
    -- whatever the layer has done, the connection is freed, or put back
    suffices hshut : Ends ((runMethod b (exec b k) id (.op .close) layer).run false)
        { w with stack := w.stack.away id } fun r w' => Shut id hs layer (w.stack.away id) r w'.stack by
      refine ends_call he hl (hshut.mono ?_)
      rintro ⟨⟨l', r⟩, released⟩ w₁ ⟨hk, h₁⟩
      cases r with
      | error f =>
        obtain ⟨rfl, h₁⟩ := h₁
        obtain ⟨hfound, hback⟩ := find?_refit (l := l') he hn h₁
        have hrefit : Refitted (id :: hs) w.stack (w₁.stack.back id l') :=
          h₁.refit he hn fun hc => hc.refit he hl hk hback fun hc' => (h₁.chain (hc'.away hn)).back hn
        exact ⟨isAlive_iff.2 ⟨_, hfound⟩, (ends_pure _).2 ⟨hrefit.quiet hq, hrefit⟩⟩
      | ok _ =>
        obtain ⟨rfl, h₁⟩ := h₁
        obtain ⟨e', he', hi', ho'⟩ := h₁.own
        have hself := hu.apart id List.mem_cons_self
        have hback : (w₁.stack.back id l').find? id = some { e' with layer := some l' } := by
          rw [find?_back, if_pos rfl, he']
          rfl
        have hout : e'.outer ≠ some id := by
          rw [← ho']
          unfold outer?
          rw [haway]
          intro hc
          refine hself ?_
          unfold outer?
          rw [he]
          exact hc
        have hk' : OfAKind l' l' := by cases hk <;> constructor
        refine ⟨isAlive_iff.2 ⟨e', he'⟩, ?_⟩
        rw [if_pos rfl]
        refine (freeEntry_lone (w := { w₁ with stack := w₁.stack.back id l' }) k hk' hback rfl hi' hout).mono ?_
        intro _ w₂ h₂
        have hcleared : Closes id hs w.stack (.ok ()) w₂.stack := h₁.cleared hn hself h₂
        exact ⟨hcleared.quiet hq, hcleared⟩
    cases hc with
    | ground hf hl₀ hi =>
      cases he.symm.trans hf
      cases hl.symm.trans hl₀
      exact plain_shut (w := { w with stack := w.stack.away id }) _ haway hi
    | secure hf hl₀ hi hc' =>
      cases he.symm.trans hf
      cases hl.symm.trans hl₀
      have houter := hu.outer_next he hi
      refine secure_shut (w := { w with stack := w.stack.away id }) (fun w hc hu hq => ih hc hu hq) haway hi hn
        ((outer?_away _).trans houter) (hc'.away hn) (hu.tail.away) hquiet _ ?_
      exact fun o ho w hc hq => exec_sends k ho hc hu.tail.nodup hq
    | passthrough hf hl₀ hi hc' =>
      cases he.symm.trans hf
      cases hl.symm.trans hl₀
      have houter := hu.outer_next he hi
      exact passthrough_shut (w := { w with stack := w.stack.away id }) (fun w hc hu hq => ih hc hu hq) haway hi hn
        ((outer?_away _).trans houter) (hc'.away hn) (hu.tail.away) hquiet _

end Stack

end Conduit
