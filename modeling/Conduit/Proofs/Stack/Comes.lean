import Conduit.Proofs.Stack.Chains

/-!
# What runs over the world come to

`Exec.Comes x w stop post`: when `x` is run from the world `w`, it ends as `post` says, or halts as `stop` says. Unlike
`Exec.Ends` it says something of every run, and tells which halts there may be. The equations take a run apart.
-/

namespace Conduit

namespace Exec

variable {H : Host} {α β : Type} {w : World H} {stop : Halt → World H → Prop} {post post' : α → World H → Prop}

/-- A run of `x` from `w` that ends, ends as `post` says of its result and of the world it leaves; one that halts, halts as
`stop` says of the halt and of the world it leaves. -/
def Comes (x : Exec H α) (w : World H) (stop : Halt → World H → Prop) (post : α → World H → Prop) : Prop :=
  match x w with
  | .ok a w' => post a w'
  | .error e w' => stop e w'

theorem Comes.mono {x : Exec H α} (h : Comes x w stop post) (hp : ∀ a w', post a w' → post' a w') : Comes x w stop post' := by
  unfold Comes at h ⊢
  split
  · rename_i a w' hx
    rw [hx] at h
    exact hp a w' h
  · rename_i e w' hx
    rw [hx] at h
    exact h

theorem Comes.and {stop' : Halt → World H → Prop} {x : Exec H α} (h : Comes x w stop post) (h' : Comes x w stop' post') :
    Comes x w stop fun a w' => post a w' ∧ post' a w' := by
  unfold Comes at h h' ⊢
  cases hx : x w with
  | ok a w' =>
    rw [hx] at h h'
    exact ⟨h, h'⟩
  | error e w' =>
    rw [hx] at h
    exact h

@[simp] theorem comes_pure (a : α) : Comes (pure a : Exec H α) w stop post ↔ post a w := Iff.rfl

@[simp] theorem comes_bind (x : Exec H α) (f : α → Exec H β) {post : β → World H → Prop} :
    Comes (x >>= f) w stop post ↔ Comes x w stop fun a w' => Comes (f a) w' stop post := by
  show (match EStateM.bind x f w with | .ok a w' => _ | .error e w' => _) ↔ _
  unfold EStateM.bind Comes
  cases x w with
  | ok a w' => rfl
  | error e w' => rfl

@[simp] theorem comes_get {post : World H → World H → Prop} : Comes (get : Exec H (World H)) w stop post ↔ post w w := Iff.rfl

@[simp] theorem comes_modify (f : World H → World H) {post : PUnit → World H → Prop} :
    Comes (modify f : Exec H PUnit) w stop post ↔ post ⟨⟩ (f w) := Iff.rfl

@[simp] theorem comes_throw (e : Halt) : Comes (throw e : Exec H α) w stop post ↔ stop e w := Iff.rfl

theorem Comes.ends {x : Exec H α} (h : Comes x w stop post) : Ends x w post := fun a w' hx => by
  unfold Comes at h
  rw [hx] at h
  exact h

end Exec

namespace Stack

open Exec

variable {H : Host} {b : Behaviour H} {w : World H} {stop : Halt → World H → Prop}

@[simp] theorem comes_modifySlots (f : Slots H → Slots H) {post : Unit → World H → Prop} :
    Comes (modifySlots f) w stop post ↔ post () { w with stack := f w.stack } := Iff.rfl

@[simp] theorem comes_getSlots {post : Slots H → World H → Prop} : Comes getSlots w stop post ↔ post w.stack w := Iff.rfl

@[simp] theorem comes_lookup (id : Handle) {post : Option (Entry H) → World H → Prop} :
    Comes (lookup id) w stop post ↔ post (w.stack.find? id) w := Iff.rfl

@[simp] theorem comes_note (n : Note) {post : Unit → World H → Prop} :
    Comes (note b n) w stop post ↔ post () { w with memory := b.note n w.memory } := Iff.rfl

/-- Notes change nothing but what the application remembers. -/
theorem comes_notes (ns : List Note) {post : Unit → World H → Prop} (h : ∀ m, post () { w with memory := m }) :
    Comes (notes b ns) w stop post := by
  unfold notes
  induction ns generalizing w with
  | nil => exact (comes_pure ()).2 (h w.memory)
  | cons n ns ih => exact (comes_bind _ _).2 (ih h)

/-! ## While a layer runs -/

variable {α β σ : Type} {flag : Bool} {l : σ} {B : (r : Layer.Req H) → Running H r.Ans}

@[simp] theorem comes_run_pure (a : α) {post : α × Bool → World H → Prop} :
    Comes ((pure a : Running H α).run flag) w stop post ↔ post (a, flag) w := Iff.rfl

@[simp] theorem comes_run_bind (x : Running H α) (f : α → Running H β) {post : β × Bool → World H → Prop} :
    Comes ((x >>= f).run flag) w stop post ↔ Comes (x.run flag) w stop fun r w' => Comes ((f r.1).run r.2) w' stop post := by
  rw [StateT.run_bind]
  exact comes_bind _ _

@[simp] theorem comes_run_lift (x : Exec H α) {post : α × Bool → World H → Prop} :
    Comes ((monadLift x : Running H α).run flag) w stop post ↔ Comes x w stop fun a => post (a, flag) := by
  rw [StateT.run_monadLift]
  show Comes (monadLift x >>= fun a => pure (a, flag)) w stop post ↔ _
  rw [comes_bind]
  simp only [comes_pure]
  rfl

/-- A layer does one thing, then another. -/
theorem comes_act_bind (x : Layer.Act H σ α) (f : α → Layer.Act H σ β) {post : (β × σ) × Bool → World H → Prop} :
    Comes ((((x >>= f).run l).run B).run flag) w stop post ↔
      Comes (((x.run l).run B).run flag) w stop fun r w' => Comes ((((f r.1.1).run r.1.2).run B).run r.2) w' stop post := by
  rw [StateT.run_bind, Program.run_bind]
  exact comes_run_bind _ _

theorem comes_act_pure (a : α) {post : (α × σ) × Bool → World H → Prop} :
    Comes ((((pure a : Layer.Act H σ α).run l).run B).run flag) w stop post ↔ post ((a, l), flag) w := Iff.rfl

theorem comes_act_modify (f : σ → σ) {post : (PUnit × σ) × Bool → World H → Prop} :
    Comes ((((modify f : Layer.Act H σ PUnit).run l).run B).run flag) w stop post ↔ post ((⟨⟩, f l), flag) w := Iff.rfl

theorem comes_act_set (l' : σ) {post : (PUnit × σ) × Bool → World H → Prop} :
    Comes ((((set l' : Layer.Act H σ PUnit).run l).run B).run flag) w stop post ↔ post ((⟨⟩, l'), flag) w := Iff.rfl

theorem comes_act_get {post : (σ × σ) × Bool → World H → Prop} :
    Comes ((((get : Layer.Act H σ σ).run l).run B).run flag) w stop post ↔ post ((l, l), flag) w := Iff.rfl

theorem comes_act_request (r : Layer.Req H) {post : (r.Ans × σ) × Bool → World H → Prop} :
    Comes ((((Layer.Act.request r : Layer.Act H σ r.Ans).run l).run B).run flag) w stop post ↔
      Comes ((B r).run flag) w stop fun x => post ((x.1, l), x.2) := by
  show Comes (((B r) >>= fun x => pure (x, l) : Running H (r.Ans × σ)).run flag) w stop post ↔ _
  simp only [comes_run_bind, comes_run_pure]

/-! ## Asking a connection -/

variable {A : Answers H} {free : Handle → Exec H Unit} {id : Handle} {e : Entry H}

/-- A layer that is put back as it was leaves all as it was. -/
theorem back_home {s : Slots H} {layer : Layer H} (he : s.find? id = some e) (hl : e.layer = some layer) :
    (s.away id).back id layer = s := by
  rw [Slots.back_away]
  refine Slots.update_eq_self fun e' he' => ?_
  cases he.symm.trans he'
  rw [← hl]

/-- A method runs in its connection's slot, and lets the connection go afterwards, or does not. -/
theorem comes_withLayer {m : Method} {layer : Layer H} {post : Except Fault m.Reply → World H → Prop}
    (he : w.stack.find? id = some e) (hl : e.layer = some layer)
    (h : Comes ((runMethod b A id m layer).run false) { w with stack := w.stack.away id } stop fun r w' =>
      w'.stack.isAlive id = true ∧
        Comes (if r.2 then free id else pure ()) { w' with stack := w'.stack.back id r.1.1 } stop fun _ w'' =>
          post (.ok r.1.2) w'') :
    Comes (withLayer b A free id m) w stop post := by
  unfold withLayer
  simp only [comes_bind, comes_lookup, he, hl, comes_modifySlots]
  refine h.mono ?_
  rintro r w' ⟨ha, hfree⟩
  have ha' : ({ w'.stack with depth := w'.stack.depth - 1 } : Slots H).isAlive id = true := ha
  simp only [comes_bind, comes_modifySlots, comes_getSlots, ha', if_true]
  cases hr : r.2 with
  | true =>
    rw [hr] at hfree
    simp only [if_true, comes_bind, comes_pure]
    exact hfree
  | false =>
    rw [hr] at hfree
    simp only [Bool.false_eq_true, if_false, comes_pure] at hfree ⊢
    exact hfree

/-- A layer at work, whose state is then put away. -/
theorem comes_run_map {m : Running H α} {g : α → β} {P : β × Bool → World H → Prop}
    (h : Comes (m.run flag) w stop fun r w' => P (g r.1, r.2) w') :
    Comes ((m >>= fun a => pure (g a)).run flag) w stop P :=
  (comes_run_bind _ _).2 (h.mono fun _ _ hp => (comes_run_pure _).2 hp)

end Stack

end Conduit
