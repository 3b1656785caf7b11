import Conduit.Proofs.Stack.Slots
import Conduit.Stack.Exec

/-!
# How runs over the world end

`Exec.Ends x w post`: if `x` ends when it is run from the world `w`, it ends as `post` says of its result and of the
world it leaves. Nothing is said of a run that halts. The equations take a run apart.

`Exec.reaches x w p`: `x` does end when it is run from `w`, and `p` can be seen of its result and of the world.
-/

namespace Conduit

namespace Exec

variable {H : Host} {α β : Type} {w : World H} {post post' : α → World H → Prop}

/-- Every run of `x` from `w` that ends, ends as `post` says. -/
def Ends (x : Exec H α) (w : World H) (post : α → World H → Prop) : Prop := ∀ a w', x w = .ok a w' → post a w'

/-- Whether `x`, run from `w`, ends with a result and in a world of which `p` holds. -/
def reaches (x : Exec H α) (w : World H) (p : α → World H → Bool) : Bool :=
  match x w with
  | .ok a w' => p a w'
  | .error .. => false

theorem exists_of_reaches {x : Exec H α} {p : α → World H → Bool} (h : reaches x w p = true) :
    ∃ a w', x w = .ok a w' ∧ p a w' = true := by
  unfold reaches at h
  split at h
  · rename_i a w' hx
    exact ⟨a, w', hx, h⟩
  · cases h

theorem Ends.mono {x : Exec H α} (h : Ends x w post) (hp : ∀ a w', post a w' → post' a w') : Ends x w post' :=
  fun a w' hx => hp a w' (h a w' hx)

@[simp] theorem ends_pure (a : α) : Ends (pure a : Exec H α) w post ↔ post a w := by
  constructor
  · intro h
    exact h a w rfl
  · rintro h c w' ⟨⟩
    exact h

@[simp] theorem ends_bind (x : Exec H α) (f : α → Exec H β) {post : β → World H → Prop} :
    Ends (x >>= f) w post ↔ Ends x w fun a w' => Ends (f a) w' post := by
  constructor
  · intro h a w' hx c w'' hf
    refine h c w'' ?_
    show EStateM.bind x f w = _
    unfold EStateM.bind
    rw [hx]
    exact hf
  · intro h c w'' hxf
    change EStateM.bind x f w = _ at hxf
    unfold EStateM.bind at hxf
    split at hxf
    · rename_i a w' hx
      exact h a w' hx c w'' hxf
    · cases hxf

@[simp] theorem ends_map (f : α → β) (x : Exec H α) {post : β → World H → Prop} :
    Ends (f <$> x) w post ↔ Ends x w fun a => post (f a) := by
  rw [map_eq_pure_bind, ends_bind]
  simp only [ends_pure]

@[simp] theorem ends_get {post : World H → World H → Prop} : Ends (get : Exec H (World H)) w post ↔ post w w :=
  ends_pure (w := w) w

@[simp] theorem ends_modify (f : World H → World H) {post : PUnit → World H → Prop} :
    Ends (modify f : Exec H PUnit) w post ↔ post ⟨⟩ (f w) := by
  constructor
  · intro h
    exact h _ _ rfl
  · rintro h c w' ⟨⟩
    exact h

@[simp] theorem ends_throw (e : Halt) : Ends (throw e : Exec H α) w post := by
  intro a w' h
  cases h

end Exec

namespace Stack

open Exec

variable {H : Host} {b : Behaviour H} {w : World H}

@[simp] theorem ends_modifySlots (f : Slots H → Slots H) {post : Unit → World H → Prop} :
    Ends (modifySlots f) w post ↔ post () { w with stack := f w.stack } := ends_modify _

@[simp] theorem ends_getSlots {post : Slots H → World H → Prop} : Ends getSlots w post ↔ post w.stack w := by
  unfold getSlots
  simp

@[simp] theorem ends_lookup (id : Handle) {post : Option (Entry H) → World H → Prop} :
    Ends (lookup id) w post ↔ post (w.stack.find? id) w := by
  unfold lookup
  simp

@[simp] theorem ends_note (n : Note) {post : Unit → World H → Prop} :
    Ends (note b n) w post ↔ post () { w with memory := b.note n w.memory } := ends_modify _

/-- Notes change nothing but what the application remembers. -/
theorem ends_notes (ns : List Note) {post : Unit → World H → Prop}
    (h : ∀ m, post () { w with memory := m }) : Ends (notes b ns) w post := by
  unfold notes
  induction ns generalizing w with
  | nil => exact (ends_pure ()).2 (h w.memory)
  | cons n ns ih =>
    show Ends (note b n >>= fun _ => ns.forM (note b)) w post
    rw [ends_bind, ends_note]
    exact ih h

/-! ## While a layer runs -/

variable {α β : Type} {flag : Bool}

@[simp] theorem ends_run_pure (a : α) {post : α × Bool → World H → Prop} :
    Ends ((pure a : Running H α).run flag) w post ↔ post (a, flag) w := ends_pure _

@[simp] theorem ends_run_bind (x : Running H α) (f : α → Running H β) {post : β × Bool → World H → Prop} :
    Ends ((x >>= f).run flag) w post ↔ Ends (x.run flag) w fun r w' => Ends ((f r.1).run r.2) w' post := by
  rw [StateT.run_bind]
  exact ends_bind _ _

@[simp] theorem ends_run_lift (x : Exec H α) {post : α × Bool → World H → Prop} :
    Ends ((monadLift x : Running H α).run flag) w post ↔ Ends x w fun a => post (a, flag) := by
  rw [StateT.run_monadLift]
  show Ends (monadLift x >>= fun a => pure (a, flag)) w post ↔ _
  rw [ends_bind]
  simp only [ends_pure]
  rfl

end Stack

end Conduit
