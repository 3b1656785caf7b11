import Conduit.Proofs.Segments
import Conduit.Proofs.Stack.Halves

/-!
# One run after another

Whether a run comes to the end that another has come to. A plain layer works on the endpoint below it and on nothing
else, so it does the same whatever stands on its connection.

* `Exec.Follows`: a run that ends as another does.
* `Stack.Same`: two worlds that differ in their connections only.
* `Plain.op_twin`: **what a plain layer is asked has the same answer in both**, also while data of one of them is out.
* `Stack.freeEntry_spent`: a connection whose layer has nothing left to say is freed.
-/

namespace Conduit

variable {H : Host}

/-! ## Runs -/

namespace Exec

variable {α β γ δ : Type} {w w' u v : World H} {post post' : α → World H → β → World H → Prop}

/-- When `x`, run from `w`, ends, so does `y`, run from `w'`, as `post` says of their results and of the worlds they leave;
when the one halts, so does the other for the same reason. Nothing is said of `y` when `x` is given too little fuel. -/
def Follows (x : Exec H α) (y : Exec H β) (w w' : World H) (post : α → World H → β → World H → Prop) : Prop :=
  match x w with
  | .ok a u => ∃ c v, y w' = .ok c v ∧ post a u c v
  | .error .outOfFuel _ => True
  | .error h _ => ∃ v, y w' = .error h v

/-- How two such runs end. -/
theorem Follows.ends {x : Exec H α} {y : Exec H β} (h : Follows x y w w' post) :
    (∃ a u c v, x w = .ok a u ∧ y w' = .ok c v ∧ post a u c v) ∨ (∃ u, x w = .error .outOfFuel u) ∨
      ∃ e u v, x w = .error e u ∧ y w' = .error e v := by
  unfold Follows at h
  split at h
  · obtain ⟨c, v, hy, hpost⟩ := h
    exact .inl ⟨_, _, c, v, ‹_›, hy, hpost⟩
  · exact .inr (.inl ⟨_, ‹_›⟩)
  · obtain ⟨v, hy⟩ := h
    exact .inr (.inr ⟨_, _, v, ‹_›, hy⟩)

theorem follows_ok {x : Exec H α} {y : Exec H β} {a : α} {c : β} (hx : x w = .ok a u) (hy : y w' = .ok c v)
    (h : post a u c v) : Follows x y w w' post := by
  unfold Follows
  rw [hx]
  exact ⟨c, v, hy, h⟩

theorem Follows.ok {x : Exec H α} {y : Exec H β} (h : Follows x y w w' post) {a : α} (hx : x w = .ok a u) :
    ∃ c v, y w' = .ok c v ∧ post a u c v := by
  unfold Follows at h
  rwa [hx] at h

theorem Follows.mono {x : Exec H α} {y : Exec H β} (h : Follows x y w w' post)
    (hp : ∀ a u c v, post a u c v → post' a u c v) : Follows x y w w' post' := by
  unfold Follows at h ⊢
  split at h
  · obtain ⟨c, v, hy, hpost⟩ := h
    exact ⟨c, v, hy, hp _ _ _ _ hpost⟩
  · trivial
  · exact h

theorem Follows.of_twin {x : Exec H α} {y : Exec H β} (h : Twin x y w w' post) : Follows x y w w' post := by
  unfold Twin at h
  unfold Follows
  split at h
  · rename_i a u c v hx hy
    rw [hx]
    exact ⟨c, v, hy, h⟩
  · rename_i e u e' v hx hy
    subst h
    rw [hx, hy]
    split
    · cases ‹EStateM.Result.error _ _ = .ok _ _›
    · trivial
    · cases ‹EStateM.Result.error _ _ = .error _ _›
      exact ⟨v, rfl⟩
  · cases h

theorem follows_pure {a : α} {c : β} (h : post a w c w') : Follows (pure a : Exec H α) (pure c : Exec H β) w w' post :=
  ⟨c, w', rfl, h⟩

/-- A run without fuel is followed by any. -/
theorem follows_outOfFuel {x : Exec H α} {y : Exec H β} (h : x w = .error .outOfFuel u) : Follows x y w w' post := by
  unfold Follows
  rw [h]
  trivial

theorem follows_error {x : Exec H α} {y : Exec H β} {h : Halt} (hx : x w = .error h u)
    (hy : y w' = .error h v) : Follows x y w w' post := by
  unfold Follows
  rw [hx]
  split
  · cases ‹EStateM.Result.error _ _ = .ok _ _›
  · trivial
  · cases ‹EStateM.Result.error _ _ = .error _ _›
    exact ⟨v, hy⟩

/-- What each of them comes to after its first steps. -/
theorem Follows.of_eq {x x' : Exec H α} {y y' : Exec H β} (hx : x w = x' u) (hy : y w' = y' v)
    (h : Follows x' y' u v post) : Follows x y w w' post := by
  unfold Follows at h ⊢
  rw [hx]
  split at h
  · obtain ⟨c, z, hz, hpost⟩ := h
    exact ⟨c, z, hy.trans hz, hpost⟩
  · trivial
  · obtain ⟨z, hz⟩ := h
    exact ⟨z, hy.trans hz⟩

theorem Follows.bind {x : Exec H α} {y : Exec H β} {f : α → Exec H γ} {g : β → Exec H δ}
    {post : γ → World H → δ → World H → Prop} (h : Follows x y w w' fun a u c v => Follows (f a) (g c) u v post) :
    Follows (x >>= f) (y >>= g) w w' post := by
  rcases h.ends with ⟨a, u, c, v, hx, hy, hpost⟩ | ⟨u, hx⟩ | ⟨e, u, v, hx, hy⟩
  · exact .of_eq (bind_ok hx f) (bind_ok hy g) hpost
  · exact follows_outOfFuel (bind_error hx f)
  · exact follows_error (bind_error hx f) (bind_error hy g)

theorem Follows.then_pure {x : Exec H α} {y : Exec H β} {a : γ} {c : δ} {post : γ → World H → δ → World H → Prop}
    (h : Follows x y w w' fun _ u _ v => post a u c v) :
    Follows (x >>= fun _ => pure a) (y >>= fun _ => pure c) w w' post :=
  .bind (h.mono fun _ _ _ _ hp => follows_pure hp)

/-- The second run goes on where the first has nothing more to do. -/
theorem Follows.bind_right {x : Exec H α} {y : Exec H β} {g : β → Exec H δ} {post : α → World H → δ → World H → Prop}
    (h : Follows x y w w' fun a u c v => ∃ d z, g c v = .ok d z ∧ post a u d z) : Follows x (y >>= g) w w' post := by
  have h' : Follows (x >>= pure) (y >>= g) w w' post := by
    refine .bind (h.mono fun a u c v hg => ?_)
    obtain ⟨d, z, hg, hpost⟩ := hg
    exact follows_ok rfl hg hpost
  rwa [bind_pure] at h'

-- a run is not evaluated where it is only compared
attribute [irreducible] Follows

end Exec

/-- Whether an operation that was answered so lets its connection go. -/
def Op.releases : (o : Op) → o.Reply → Bool
  | .close, .ok _ => true
  | _, _ => false

/-- Whether an operation that was answered so is the last of its connection. -/
def Op.ends : (o : Op) → o.Reply → Bool
  | .abort, _ => true
  | .close, .ok _ => true
  | _, _ => false

theorem ends_of_releases {o : Op} {r : o.Reply} (h : o.releases r = true) : o.ends r = true := by
  cases o with
  | close => cases r with
    | ok _ => rfl
    | error _ => cases h
  | _ => cases h

theorem ends_eq_releases {o : Op} {r : o.Reply} (h : o ≠ .abort) : o.ends r = o.releases r := by
  cases o with
  | abort => exact absurd rfl h
  | close => cases r <;> rfl
  | _ => rfl

/-- The application keeps no log. -/
def Behaviour.Logless (b : Behaviour H) : Prop := ∀ n m, b.note n m = m

/-- A plain layer of which data is out. -/
def Plain.loaded {P : Type} (l : Plain P) : Option Segments → Plain P
  | none => l
  | some r => { l with rx := r, inFlight := some r.size }

/-- A plain layer that has handed up all it got. -/
structure Plain.Drained {P : Type} (l : Plain P) : Prop where
  inFlight : l.inFlight = none
  rx : l.rx = .empty
  fin : l.rxShut = false → l.finPending = true → l.finDelivered = true

theorem Plain.Drained.shut {P : Type} {l : Plain P} (h : l.Drained) : { l with rxShut := true }.Drained :=
  ⟨h.inFlight, h.rx, fun hc => (nomatch hc)⟩

theorem Plain.shut_loaded {P : Type} (l : Plain P) (f : Option Segments) :
    { l.loaded f with rxShut := true } = { l with rxShut := true }.loaded f := by
  cases f <;> rfl

theorem Plain.pcb_loaded {P : Type} (l : Plain P) (f : Option Segments) : (l.loaded f).pcb = l.pcb := by
  cases f <;> rfl

namespace Stack

open Exec Slots

variable {b : Behaviour H} {w w' u v : World H} {A A' : Answers H} {id : Handle} {e : Entry H} {k : Nat}

/-- Two worlds that differ in their connections only. -/
structure Same (w w' : World H) : Prop where
  net : w'.net = w.net
  shared : w'.shared = w.shared
  memory : w'.memory = w.memory

theorem Same.refl (w : World H) : Same w w := ⟨rfl, rfl, rfl⟩

theorem Same.symm (h : Same w w') : Same w' w := ⟨h.net.symm, h.shared.symm, h.memory.symm⟩

theorem Same.trans (h : Same w u) (h' : Same u w') : Same w w' :=
  ⟨h'.net.trans h.net, h'.shared.trans h.shared, h'.memory.trans h.memory⟩

theorem note_eq (hb : b.Logless) (n : Note) : note b n = pure () := by
  funext w
  show EStateM.Result.ok () { w with memory := b.note n w.memory } = .ok () w
  rw [hb]

theorem notes_eq (hb : b.Logless) (ns : List Note) : notes b ns = pure () := by
  unfold notes
  induction ns with
  | nil => rfl
  | cons n ns ih =>
    show (note b n >>= fun _ => ns.forM (note b)) = pure ()
    rw [note_eq hb, pure_bind, ih]

/-- An endpoint does not know what connections there are. -/
theorem performPcb_twin (hb : b.Logless) (h : Same w w') (p : PcbRef H.Pcb) (o : PcbOp) :
    Twin (performPcb b p o) (performPcb b p o) w w' fun r u r' v =>
      r' = r ∧ Same u v ∧ u.stack = w.stack ∧ v.stack = w'.stack := by
  cases p with
  | loopback i =>
    unfold Twin
    simp only [performPcb, notes_eq hb, pure_bind]
    rw [bind_ok (x := get) (u := w) rfl, bind_ok (x := get) (u := w') rfl, h.net]
    cases w.net.perform i o with
    | error e => rfl
    | ok r => exact ⟨rfl, ⟨rfl, h.shared, h.memory⟩, rfl, rfl⟩
  | external p =>
    have hrun : ∀ w : World H, performPcb b (.external p) o w =
        .ok (b.pcb p o w.memory).1 { w with memory := (b.pcb p o w.memory).2 } := fun _ => rfl
    unfold Twin
    rw [hrun, hrun, h.memory]
    exact ⟨rfl, ⟨h.net, h.shared, rfl⟩, rfl, rfl⟩

/-! ## Layers at work -/

section

variable {σ τ α β γ δ : Type} {l : σ} {l' : τ} {flag flag' : Bool} {B B' : (r : Layer.Req H) → Running H r.Ans}

theorem twin_act_bind {x : Layer.Act H σ α} {x' : Layer.Act H τ β} {f : α → Layer.Act H σ γ} {g : β → Layer.Act H τ δ}
    {post : (γ × σ) × Bool → World H → (δ × τ) × Bool → World H → Prop}
    (h : Twin (((x.run l).run B).run flag) (((x'.run l').run B').run flag') w w' fun r u r' v =>
      Twin ((((f r.1.1).run r.1.2).run B).run r.2) ((((g r'.1.1).run r'.1.2).run B').run r'.2) u v post) :
    Twin ((((x >>= f).run l).run B).run flag) ((((x' >>= g).run l').run B').run flag') w w' post := by
  rw [StateT.run_bind, StateT.run_bind, Program.run_bind, Program.run_bind, StateT.run_bind, StateT.run_bind]
  exact h.bind

theorem twin_act_get {post : (σ × σ) × Bool → World H → (τ × τ) × Bool → World H → Prop}
    (h : post ((l, l), flag) w ((l', l'), flag') w') :
    Twin ((((get : Layer.Act H σ σ).run l).run B).run flag) ((((get : Layer.Act H τ τ).run l').run B').run flag') w w'
      post := h

theorem twin_act_modify {g : σ → σ} {g' : τ → τ} {post : (PUnit × σ) × Bool → World H → (PUnit × τ) × Bool → World H → Prop}
    (h : post ((⟨⟩, g l), flag) w ((⟨⟩, g' l'), flag') w') :
    Twin ((((modify g : Layer.Act H σ PUnit).run l).run B).run flag)
      ((((modify g' : Layer.Act H τ PUnit).run l').run B').run flag') w w' post := h

theorem twin_act_set {s : σ} {s' : τ} {post : (PUnit × σ) × Bool → World H → (PUnit × τ) × Bool → World H → Prop}
    (h : post ((⟨⟩, s), flag) w ((⟨⟩, s'), flag') w') :
    Twin ((((set s : Layer.Act H σ PUnit).run l).run B).run flag) ((((set s' : Layer.Act H τ PUnit).run l').run B').run flag')
      w w' post := h

theorem twin_act_request {r r' : Layer.Req H} {post : (r.Ans × σ) × Bool → World H → (r'.Ans × τ) × Bool → World H → Prop}
    (h : Twin ((B r).run flag) ((B' r').run flag') w w' fun x u y v => post ((x.1, l), x.2) u ((y.1, l'), y.2) v) :
    Twin ((((Layer.Act.request r : Layer.Act H σ r.Ans).run l).run B).run flag)
      ((((Layer.Act.request r' : Layer.Act H τ r'.Ans).run l').run B').run flag') w w' post := by
  show Twin ((B r >>= fun x => pure (x, l) : Running H (r.Ans × σ)).run flag)
    ((B' r' >>= fun x => pure (x, l') : Running H (r'.Ans × τ)).run flag') w w' post
  rw [StateT.run_bind, StateT.run_bind]
  exact h.bind

theorem twin_lift {x y : Exec H α} {post : α × Bool → World H → α × Bool → World H → Prop}
    (h : Twin x y w w' fun a u c v => post (a, flag) u (c, flag') v) :
    Twin ((monadLift x : Running H α).run flag) ((monadLift y : Running H α).run flag') w w' post := by
  rw [StateT.run_monadLift, StateT.run_monadLift]
  exact Twin.bind h

end

section

variable {σ : Type} {l l' : σ} {flag flag' : Bool}

theorem twin_act_pcb (hb : b.Logless) (h : Same w w') (p : PcbRef H.Pcb) (o : PcbOp)
    {post : (o.Reply × σ) × Bool → World H → (o.Reply × σ) × Bool → World H → Prop}
    (hp : ∀ r u v, Same u v → u.stack = w.stack → v.stack = w'.stack → post ((r, l), flag) u ((r, l'), flag') v) :
    Twin ((((Layer.Act.pcb p o : Layer.Act H σ _).run l).run (answerLayer b A id)).run flag)
      ((((Layer.Act.pcb p o : Layer.Act H σ _).run l').run (answerLayer b A' id)).run flag') w w' post := by
  refine twin_act_request (twin_lift ((performPcb_twin hb h p o).mono ?_))
  rintro r u r' v ⟨rfl, hs, hu, hv⟩
  exact hp r' u v hs hu hv

theorem twin_act_note (hb : b.Logless) (n n' : Note) {post : (Unit × σ) × Bool → World H → (Unit × σ) × Bool → World H → Prop}
    (h : post (((), l), flag) w (((), l'), flag') w') :
    Twin ((((Layer.Act.note n : Layer.Act H σ _).run l).run (answerLayer b A id)).run flag)
      ((((Layer.Act.note n' : Layer.Act H σ _).run l').run (answerLayer b A' id)).run flag') w w' post := by
  refine twin_act_request (twin_lift (x := note b n) (y := note b n') ?_)
  rw [note_eq hb, note_eq hb]
  exact h

theorem twin_act_release {post : (Unit × σ) × Bool → World H → (Unit × σ) × Bool → World H → Prop}
    (h : post (((), l), true) w (((), l'), true) w') :
    Twin ((((Layer.Act.release : Layer.Act H σ _).run l).run (answerLayer b A id)).run flag)
      ((((Layer.Act.release : Layer.Act H σ _).run l').run (answerLayer b A' id)).run flag') w w' post := h

theorem twin_act_pollInterval {post : (Nat × σ) × Bool → World H → (Nat × σ) × Bool → World H → Prop}
    (h : (w'.stack.find? id).map (·.pollInterval) = (w.stack.find? id).map (·.pollInterval))
    (hp : ∀ n, post ((n, l), flag) w ((n, l'), flag') w') :
    Twin ((((Layer.Act.pollInterval : Layer.Act H σ _).run l).run (answerLayer b A id)).run flag)
      ((((Layer.Act.pollInterval : Layer.Act H σ _).run l').run (answerLayer b A' id)).run flag') w w' post := by
  refine twin_act_request ?_
  show post ((((w.stack.find? id).map (·.pollInterval)).getD 0, l), flag) w
    ((((w'.stack.find? id).map (·.pollInterval)).getD 0, l'), flag') w'
  rw [h]
  exact hp _

end

/-! ## A plain layer -/

section

variable {l : Plain H.Pcb} {f : Option Segments} {flag : Bool}

theorem withPcb_twin (hb : b.Logless) (h : Same w w') {o : PcbOp} {absent : o.Reply}
    {post : (o.Reply × Plain H.Pcb) × Bool → World H → (o.Reply × Plain H.Pcb) × Bool → World H → Prop}
    (hp : ∀ r u v, Same u v → u.stack = w.stack → v.stack = w'.stack → post ((r, l.loaded f), flag) u ((r, l), flag) v) :
    Twin ((((Plain.withPcb o absent : Plain.Act H _).run (l.loaded f)).run (answerLayer b A id)).run flag)
      ((((Plain.withPcb o absent : Plain.Act H _).run l).run (answerLayer b A' id)).run flag) w w' post := by
  unfold Plain.withPcb
  refine twin_act_bind (twin_act_get ?_)
  simp only [Plain.pcb_loaded]
  cases l.pcb with
  | none => exact hp absent w w' h rfl rfl
  | some p => exact twin_act_pcb hb h p o hp

/-- Once the read half is shut, nothing is handed up any more. -/
theorem Plain.offer_twin (hb : b.Logless) (h : Same w w') (hf : f ≠ none → l.Drained) (hshut : l.rxShut = true) :
    Twin ((((Plain.offer id).run (l.loaded f)).run (answerLayer b A id)).run flag)
      ((((Plain.offer id).run l).run (answerLayer b A' id)).run flag) w w' fun x u y v =>
        (x.2 = flag ∧ y.2 = flag ∧ x.1.2 = y.1.2.loaded f ∧ (l.Drained → y.1.2.Drained)) ∧
          Same u v ∧ u.stack = w.stack ∧ v.stack = w'.stack := by
  unfold Plain.offer
  refine twin_act_bind (twin_act_get ?_)
  cases f with
  | some r =>
    have hd := hf (by simp)
    have hout : ¬ l.inFlight.isSome = true := by simp [hd.inFlight]
    have hempty : ¬ 0 < l.rx.size := by simp [hd.rx, Segments.size_empty]
    rw [if_pos (show (l.loaded (some r)).inFlight.isSome = true from rfl), if_neg hout, if_pos hshut, if_neg hempty]
    exact ⟨⟨rfl, rfl, rfl, fun h => h⟩, h, rfl, rfl⟩
  | none =>
    by_cases hout : l.inFlight.isSome = true
    · simp only [Plain.loaded, hout, if_true]
      exact ⟨⟨rfl, rfl, rfl, fun h => h⟩, h, rfl, rfl⟩
    · by_cases hheld : 0 < l.rx.size
      · simp only [Plain.loaded, hout, hshut, hheld, if_true, Bool.false_eq_true, if_false]
        refine twin_act_bind (twin_act_set (twin_act_bind (withPcb_twin (f := none) hb h fun _ u v hs hu hv => ?_)))
        exact twin_act_note hb _ _ ⟨⟨rfl, rfl, rfl, fun hd => ⟨hd.inFlight, rfl, fun hc => (nomatch hc)⟩⟩, hs, hu, hv⟩
      · simp only [Plain.loaded, hout, hshut, hheld, if_true, Bool.false_eq_true, if_false]
        exact ⟨⟨rfl, rfl, rfl, fun h => h⟩, h, rfl, rfl⟩

/-- What a plain layer, of which `f` is out, and the same layer without it have come to when they are asked `o`: the answer
is the same, and so are they, or both have given their endpoint up. -/
structure Plain.Agree (o : Op) (f : Option Segments) (l : Plain H.Pcb) (x y : (o.Reply × Plain H.Pcb) × Bool) : Prop where
  reply : y.1.1 = x.1.1
  flag : x.2 = o.releases x.1.1
  same : y.2 = x.2
  layers : if o.ends x.1.1 then x.1.2.pcb = none ∧ y.1.2.pcb = none
    else x.1.2 = y.1.2.loaded f ∧ (l.Drained → y.1.2.Drained)

/-- **A plain layer answers the same**, whatever stands on its connection, and also while data of it is out. -/
theorem Plain.op_twin (hb : b.Logless) (h : Same w w')
    (hpoll : (w'.stack.find? id).map (·.pollInterval) = (w.stack.find? id).map (·.pollInterval))
    (hf : f ≠ none → l.Drained) {o : Op} (hl : ∀ e, o ≠ .lower e) (hd : o ≠ .shutdown .both) :
    Twin ((((Plain.step id (.op o) : Plain.Act H _).run (l.loaded f)).run (answerLayer b A id)).run false)
      ((((Plain.step id (.op o) : Plain.Act H _).run l).run (answerLayer b A' id)).run false) w w' fun x u y v =>
        Agree o f l x y ∧ Same u v ∧ u.stack = w.stack ∧ v.stack = w'.stack := by
  have hasks : ∀ (p : PcbOp) (absent : p.Reply),
      Twin ((((Plain.withPcb p absent : Plain.Act H _).run (l.loaded f)).run (answerLayer b A id)).run false)
        ((((Plain.withPcb p absent : Plain.Act H _).run l).run (answerLayer b A' id)).run false) w w' fun x u y v =>
          (x = ((y.1.1, l.loaded f), false) ∧ y = ((y.1.1, l), false)) ∧
            Same u v ∧ u.stack = w.stack ∧ v.stack = w'.stack :=
    fun p absent => withPcb_twin hb h fun r u v hs hu hv => ⟨⟨rfl, rfl⟩, hs, hu, hv⟩
  cases o with
  | lower e => exact absurd rfl (hl e)
  | abort =>
    show Twin ((((Plain.abort id).run (l.loaded f)).run (answerLayer b A id)).run false)
      ((((Plain.abort id).run l).run (answerLayer b A' id)).run false) w w' _
    unfold Plain.abort
    refine twin_act_bind (twin_act_get ?_)
    simp only [Plain.pcb_loaded]
    cases hp : l.pcb with
    | none => exact ⟨⟨rfl, rfl, rfl, (Plain.pcb_loaded l f).trans hp, hp⟩, h, rfl, rfl⟩
    | some p =>
      refine twin_act_bind (twin_act_modify (twin_act_bind (twin_act_pcb hb h p _ fun _ u v hs hu hv => ?_)))
      refine twin_act_bind (twin_act_pcb hb hs p _ fun _ u₁ v₁ hs₁ hu₁ hv₁ => twin_act_bind (twin_act_note hb _ _ ?_))
      exact ⟨⟨rfl, rfl, rfl, rfl, rfl⟩, hs₁, hu₁.trans hu, hv₁.trans hv⟩
  | close =>
    show Twin ((((Plain.close id).run (l.loaded f)).run (answerLayer b A id)).run false)
      ((((Plain.close id).run l).run (answerLayer b A' id)).run false) w w' _
    unfold Plain.close
    refine twin_act_bind (twin_act_get ?_)
    simp only [Plain.pcb_loaded]
    cases hp : l.pcb with
    | none =>
      exact twin_act_bind (twin_act_release ⟨⟨rfl, rfl, rfl, (Plain.pcb_loaded l f).trans hp, hp⟩, h, rfl, rfl⟩)
    | some p =>
      refine twin_act_bind (twin_act_pcb hb h p _ fun _ u v hs hu hv => ?_)
      refine twin_act_bind (twin_act_pcb hb hs p _ fun r u₁ v₁ hs₁ hu₁ hv₁ => ?_)
      cases r with
      | ok _ =>
        refine twin_act_bind (twin_act_modify (twin_act_bind (twin_act_release ?_)))
        exact ⟨⟨rfl, rfl, rfl, rfl, rfl⟩, hs₁, hu₁.trans hu, hv₁.trans hv⟩
      | error g =>
        -- the endpoint is attached again
        refine twin_act_bind (twin_act_pcb hb hs₁ p _ fun _ u₂ v₂ hs₂ hu₂ hv₂ => ?_)
        have hu' : u₂.stack = w.stack := hu₂.trans (hu₁.trans hu)
        have hv' : v₂.stack = w'.stack := hv₂.trans (hv₁.trans hv)
        refine twin_act_bind (twin_act_pollInterval (by rw [hu', hv', hpoll]) fun n => ?_)
        refine twin_act_bind (twin_act_pcb hb hs₂ p _ fun _ u₃ v₃ hs₃ hu₃ hv₃ => twin_act_bind (twin_act_note hb _ _ ?_))
        exact ⟨⟨rfl, rfl, rfl, rfl, fun hl => hl⟩, hs₃, hu₃.trans hu', hv₃.trans hv'⟩
  | shutdown d =>
    show Twin ((((Plain.shutdown id d).run (l.loaded f)).run (answerLayer b A id)).run false)
      ((((Plain.shutdown id d).run l).run (answerLayer b A' id)).run false) w w' _
    unfold Plain.shutdown
    rw [if_neg fun hc => hd (congrArg Op.shutdown hc)]
    refine twin_act_bind (withPcb_twin hb h fun r u v hs hu hv => ?_)
    cases r with
    | error g => exact ⟨⟨rfl, rfl, rfl, rfl, fun hl => hl⟩, hs, hu, hv⟩
    | ok _ =>
      by_cases hread : d = .read
      · simp only [if_pos hread]
        refine twin_act_bind (twin_act_modify (twin_act_bind ?_))
        simp only [Plain.shut_loaded]
        refine (Plain.offer_twin (l := { l with rxShut := true }) (f := f) hb hs ?_ rfl).mono ?_
        · exact fun hsome => (hf hsome).shut
        · rintro x u₁ y v₁ ⟨⟨hx, hy, hl, hdrained⟩, hs₁, hu₁, hv₁⟩
          exact ⟨⟨rfl, hx, hy.trans hx.symm, hl, fun hl => hdrained hl.shut⟩, hs₁, hu₁.trans hu, hv₁.trans hv⟩
      · simp only [if_neg hread]
        exact ⟨⟨rfl, rfl, rfl, rfl, fun hl => hl⟩, hs, hu, hv⟩
  | _ =>
    refine (hasks _ _).mono ?_
    rintro x u y v ⟨⟨hx, hy⟩, hrest⟩
    rw [hx, hy]
    exact ⟨⟨rfl, rfl, rfl, rfl, fun hl => hl⟩, hrest⟩

end

end Stack

end Conduit
