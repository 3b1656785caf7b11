import Conduit.Proofs.Stack.Working

/-!
# What a layer's program preserves

A layer that works in the stack asks only what it may, and finds the slots in order each time it does. So what each of
its requests preserves then, its program does.

* `Recorded.Allowed`: what a layer may ask, while others run.
* `Recorded.inward_rule`: **a rule for the programs of layers.**
* `Recorded.withLayer_rule`: a rule for methods that run in their connections' slots.
* `Recorded.freeEntry_rule`: a rule for connections that are freed.
-/

namespace Conduit

open Exec

variable {H : Host} {b : Behaviour H} {R K : List Handle} {id : Handle} {top : Bool} {w : World H}

namespace Recorded

open Stack Slots

/-- What a layer may ask of another connection while the layers of `R` run: one that is below some connection, and at or
below which none of them is. -/
def Allowed (R : List Handle) (s : Slots H) : Layer.Req H → Prop
  | .ask y o => s.Clear R y ∧ (∀ e, s.find? y = some e → e.outer ≠ none) ∧ (Method.op o).isLower = false
  | _ => True

variable {A : Answers H} {α : Type} {p : Program (Layer.io H) α} {post : List Handle → Bool → α → Prop}

/-- The slots as a layer finds them that may still ask. -/
structure Found (top : Bool) (id : Handle) (R K : List Handle) (s : Slots H) : Prop where
  sound : s.Sound (id :: R)
  clear : s.Clear R id
  known : Known s id K
  top : top = true → R = []

/-- The slots after something was done that lets no connection be linked otherwise. -/
theorem Found.shrinks {s s' : Slots H} (h : Found top id R K s) (hs : s'.Sound (id :: R)) (hsh : s.Shrinks s') :
    Found top id R K s' :=
  ⟨hs, h.clear.shrinks hsh h.sound.toLinked hs.toLinked, h.known.shrinks hsh, h.top⟩

/-- **What each request of a layer preserves, its program does.** `I` is what is known of the rest of the program, of
whether the connection is to go, of the record and of the world. -/
theorem inward_rule (hA : Modest A) (hp : p.Inward top K post) (hf : Found top id R K w.stack)
    {I : Program (Layer.io H) α → Bool → List (Mark H) → World H → Prop} {t : List (Mark H)} (hI : I p false t w)
    (hstep : ∀ r next t w₁, w₁.stack.Sound (id :: R) → Allowed (id :: R) w₁.stack r → I (.ask r next) false t w₁ →
      Ends ((answerLayer b A id r).run false) w₁ fun y u w₂ => I (next y.1) y.2 (t ++ u) w₂) :
    Ends ((p.run (answerLayer b A id)).run false) w fun y u w' => I (.done y.1) y.2 (t ++ u) w' := by
  induction p generalizing K w t with
  | done a =>
    refine (ends_run_pure a).2 ?_
    rw [List.append_nil]
    exact hI
  | ask r next ih =>
    rw [Program.run_ask]
    refine (ends_run_bind _ _).2 ?_
    -- what is left to do once the request is answered
    have hrest : ∀ {Q : r.Ans × Bool → List (Mark H) → World H → Prop}, Allowed (id :: R) w.stack r →
        Ends ((answerLayer b A id r).run false) w Q →
        (∀ y u w', Q y u w' → y.2 = false ∧ (∃ K', (next y.1).Inward top K' post ∧ Found top id R K' w'.stack) ∨
          ∃ a, next y.1 = .done a) →
        Ends ((answerLayer b A id r).run false) w fun y u w' =>
          Ends (((next y.1).run (answerLayer b A id)).run y.2) w' fun z v w'' => I (.done z.1) z.2 (t ++ (u ++ v)) w'' := by
      intro Q hallowed hQ hgo
      refine ((hstep r next t w hf.sound hallowed hI).and hQ).mono ?_
      rintro ⟨y, flag⟩ u w' ⟨hI', hq⟩
      rcases hgo _ _ _ hq with ⟨hflag, K', hnext, hf'⟩ | ⟨a, ha⟩
      · cases hflag
        refine (ih y hnext hf' hI').mono fun z v w'' h => ?_
        rw [← List.append_assoc]
        exact h
      · rw [ha] at hI' ⊢
        refine (ends_run_pure a).2 ?_
        rw [List.append_nil]
        exact hI'
    -- a request that leaves the slots as they are
    have hquiet : ∀ K', Allowed (id :: R) w.stack r → (∀ y, (next y).Inward top K' post) → Found top id R K' w.stack →
        Ends ((answerLayer b A id r).run false) w (fun y _ w' => y.2 = false ∧ w'.stack = w.stack) →
        Ends ((answerLayer b A id r).run false) w fun y u w' =>
          Ends (((next y.1).run (answerLayer b A id)).run y.2) w' fun z v w'' => I (.done z.1) z.2 (t ++ (u ++ v)) w'' := by
      intro K' hallowed hnext hf' hQ
      refine hrest hallowed hQ fun y u w' h => .inl ⟨h.1, K', hnext _, ?_⟩
      rw [h.2]
      exact hf'
    cases r with
    | inner =>
      refine hrest trivial (Q := fun y _ w' => y = (w.stack.inner? id, false) ∧ w' = w) ?_ ?_
      · show Ends (lift ((do
          pure ((← lookup (H := H) id).bind (·.inner)) : Stack.Running H (Option Handle)).run false)) w _
        simp only [ends_lift, Stack.ends_run_bind, Stack.ends_run_lift, ends_lookup, Stack.ends_run_pure]
        exact ⟨rfl, trivial⟩
      · rintro y u w' ⟨rfl, rfl⟩
        exact .inl ⟨rfl, _, hp _, hf.sound, hf.clear, hf.known.inner hf.sound.toLinked, hf.top⟩
    | ask y o =>
      obtain ⟨hy, ho, hnext⟩ := hp
      have hallowed : Allowed (id :: R) w.stack (.ask y o) := by
        refine ⟨hf.known.clear hf.sound hf.clear hy, fun e he hnone => ?_, ho⟩
        rw [hf.known y hy e he] at hnone
        cases hnone
      refine hrest hallowed (Q := fun y _ w' => y.2 = false ∧ w'.stack.Sound (id :: R) ∧ w.stack.Shrinks w'.stack) ?_ ?_
      · show Ends ((monadLift (A (.ask y o)) : Running H o.Reply).run false) w _
        refine (ends_run_lift _).2 ((hA.ask (id :: R) y o w (by simp) hf.sound hallowed.1 hallowed.2.1 ho).mono ?_)
        exact fun r t w' h => ⟨rfl, h.sound, h.shrinks⟩
      · exact fun y u w' h => .inl ⟨h.1, K, hnext _, hf.shrinks h.2.1 h.2.2⟩
    | emit e =>
      obtain ⟨he, hnext⟩ := hp
      refine hrest trivial (Q := fun y _ w' => y.2 = false ∧ w'.stack = w.stack.enqueue id e) ?_ ?_
      · show Ends ((monadLift (enqueue (H := H) id e) : Running H Unit).run false) w _
        simp only [ends_run_lift, enqueue, ends_bind, ends_lift, ends_getSlots, ends_record, Stack.enqueue,
          ends_modifySlots]
        exact ⟨trivial, trivial⟩
      · rintro y u w' ⟨hy, hw'⟩
        refine .inl ⟨hy, K, hnext, ?_⟩
        rw [hw']
        exact hf.shrinks (hf.sound.enqueue id e) (shrinks_enqueue_event he)
    | release =>
      obtain ⟨a, ha, -⟩ := hp
      exact hrest trivial (Q := fun _ _ _ => True) (fun _ _ _ => trivial) fun y _ _ _ => .inr ⟨a, ha⟩
    | fail reason =>
      obtain ⟨-, a, ha, -⟩ := hp
      exact hrest trivial (Q := fun _ _ _ => True) (fun _ _ _ => trivial) fun y _ _ _ => .inr ⟨a, ha⟩
    | cover inner l =>
      obtain ⟨htop, hnext⟩ := hp
      refine hrest trivial (Q := fun y _ w' => y.2 = false ∧ w'.stack.Sound (id :: R)) ?_ ?_
      · show Ends ((monadLift (A (.wrap inner (.secure l))) : Running H (Except Fault Handle)).run false) w _
        exact (ends_run_lift _).2 ((hA.cover (id :: R) inner l w hf.sound).mono fun r t w' h => ⟨rfl, h.1⟩)
      · intro y u w' h
        refine .inl ⟨h.1, [], hnext _, h.2, ?_, fun z hz => absurd hz List.not_mem_nil, hf.top⟩
        rw [hf.top htop]
        exact clear_nil _ _
    | pollInterval =>
      refine hquiet K trivial hp hf ?_
      show Ends (lift ((do
        pure (((← lookup (H := H) id).map (·.pollInterval)).getD 0) : Stack.Running H Nat).run false)) w _
      simp only [ends_lift, Stack.ends_run_bind, Stack.ends_run_lift, ends_lookup, Stack.ends_run_pure]
      exact ⟨trivial, trivial⟩
    | note n =>
      refine hquiet K trivial (fun _ => hp) hf ?_
      show Ends (lift ((monadLift (note b n) : Stack.Running H Unit).run false)) w _
      simp only [ends_lift, Stack.ends_run_lift, ends_note]
      exact ⟨trivial, trivial⟩
    | pcb q o =>
      refine hquiet K trivial hp hf ?_
      show Ends (lift ((monadLift (performPcb b q o) : Stack.Running H o.Reply).run false)) w _
      simp only [ends_lift, Stack.ends_run_lift]
      exact (ends_performPcb q o).mono fun r w' hw => ⟨trivial, hw⟩
    | newEngine config name =>
      refine hquiet K trivial hp hf ?_
      show Ends (lift ((monadLift (Stack.newEngine b config name) :
        Stack.Running H (Except Fault H.Engine)).run false)) w _
      simp only [ends_lift, Stack.ends_run_lift]
      exact (ends_newEngine config name).mono fun r w' hw => ⟨trivial, hw⟩
    | shared =>
      refine hquiet K trivial hp hf ?_
      intro q w' hrun
      cases hrun
      exact ⟨rfl, rfl⟩
    | setShared v =>
      refine hquiet K trivial (fun _ => hp) hf ?_
      intro q w' hrun
      cases hrun
      exact ⟨rfl, rfl⟩

end Recorded

/-! ## Methods that run -/

namespace Slots

/-- The slots once the layer of a connection has said farewell, and the connection is taken out. -/
def bidden (s : Slots H) (id : Handle) (e : Entry H) : Slots H :=
  (s.update id fun e => { e with layer := none }).release id { e with layer := none }

theorem shrinks_away (s : Slots H) (id : Handle) : s.Shrinks (s.away id) :=
  have hout : s.Shrinks (s.update id fun e => { e with layer := none }) := .of_update (fun _ => rfl) fun _ => rfl
  hout.trans (.of_same rfl rfl rfl)

theorem shrinks_back (s : Slots H) (id : Handle) (layer : Layer H) : s.Shrinks (s.back id layer) :=
  have hdone : s.Shrinks { s with depth := s.depth - 1 } := .of_same rfl rfl rfl
  hdone.trans (.of_update (fun _ => rfl) fun _ => rfl)

theorem isAlive_back (s : Slots H) (id x : Handle) (layer : Layer H) :
    (s.back id layer).isAlive x = s.isAlive x := isAlive_update

end Slots

namespace Recorded

open Stack Slots

variable {A : Answers H} {free : Handle → Recorded H Unit} [IsEmpty H.Layer] {m : Method}

/-- **What a method is shown to leave is left once its layer is put back**, and the connection is freed if the layer has
let it go. -/
theorem withLayer_rule (hA : Modest A) (hm : m ≠ .dealloc) (htop : m.isLower = true → R = []) (hs : w.stack.Sound R)
    (hc : w.stack.Clear R id) {post : Except Fault m.Reply → List (Mark H) → World H → Prop}
    {Q : Layer H → m.Reply → Bool → List (Mark H) → World H → Prop}
    (habsent : w.stack.find? id = none → post (.error .invalidArgument) [] w)
    (hrun : ∀ e layer, w.stack.find? id = some e → e.layer = some layer →
      Ends ((runMethod b A id m layer).run false) { w with stack := w.stack.away id } fun y t w' =>
        Q y.1.1 y.1.2 y.2 t w')
    (hback : ∀ layer reply t w₁, w₁.stack.isAlive id = true → Q layer reply false t w₁ →
      post (.ok reply) t { w₁ with stack := w₁.stack.back id layer })
    (hfree : ∀ layer reply t w₁, Q layer reply true t w₁ → (w₁.stack.back id layer).Sound R →
      (w₁.stack.back id layer).Clear R id → (w₁.stack.back id layer).isAlive id = true →
      Ends (free id) { w₁ with stack := w₁.stack.back id layer } fun _ u w₂ =>
        post (.ok reply) (t ++ (closing id m reply ++ u)) w₂) :
    Ends (withLayer b A free id m) w post := by
  unfold withLayer
  simp only [ends_bind, ends_lift, ends_lookup]
  cases hf : w.stack.find? id with
  | none =>
    simp only [ends_pure, List.append_nil]
    exact habsent hf
  | some e =>
    cases hl : e.layer with
    | none => exact absurd ((hs.home id e hf).1 hl) hc.not_mem
    | some layer =>
      have hsound : (w.stack.away id).Sound (id :: R) := hs.enter (isAlive_iff.2 ⟨e, hf⟩)
      have hclear : (w.stack.away id).Clear R id := hc.shrinks (shrinks_away _ _) hs.toLinked hsound.toLinked
      simp only [hl, ends_bind, ends_lift, ends_modifySlots]
      refine ((hrun e layer hf hl).and (runMethod_ends (w := { w with stack := w.stack.away id }) hA hm htop hsound hclear
        layer)).mono ?_
      rintro ⟨⟨layer', reply⟩, release⟩ t w₁ ⟨hran, hsettled, hleft⟩
      have halive : ({ w₁.stack with depth := w₁.stack.depth - 1 } : Slots H).isAlive id = true :=
        hleft.sound.running id List.mem_cons_self
      simp only [ends_record, ends_getSlots, halive, if_true, ends_bind, ends_lift, ends_modifySlots, List.nil_append]
      cases release with
      | false =>
        have hclosing : closing (H := H) id m reply = [] := by
          unfold closing
          rw [if_neg fun hcl => Bool.false_ne_true (hsettled.closed hcl)]
        simp only [Bool.false_eq_true, if_false, ends_pure, hclosing, List.append_nil]
        exact hback layer' reply t w₁ halive hran
      | true =>
        have hsound' : (w₁.stack.back id layer').Sound R := hleft.sound.leave hc.not_mem layer'
        have hclear' : (w₁.stack.back id layer').Clear R id := by
          cases hlow : m.isLower with
          | true =>
            rw [htop hlow]
            exact clear_nil _ _
          | false =>
            exact hclear.shrinks ((hleft.shrinks hlow).trans (shrinks_back _ _ _)) hsound.toLinked hsound'.toLinked
        simp only [if_true]
        refine (ends_bind _ _).2 ((hfree layer' reply t w₁ hran hsound' hclear' ?_).mono fun _ u w₂ hpost => ?_)
        · rw [isAlive_back]
          exact halive
        · rw [ends_pure, List.append_nil]
          exact hpost

/-! ## Connections that go -/

/-- **A connection is freed** when its layer has said farewell, its neighbours have let go of it, and what stood below it
is gone. -/
theorem freeEntry_rule {k : Nat} {e : Entry H} {post : List (Mark H) → World H → Prop} {P : H.Memory → Prop}
    (hs : w.stack.Sound R) (hc : w.stack.Clear R id) (he : w.stack.find? id = some e)
    (hdealloc : Ends (dealloc b A id) w fun _ _ w₁ => P w₁.memory)
    (hlast : ∀ w₁ : World H, P w₁.memory → e.inner = none → w₁.stack = w.stack.bidden id e →
      ∀ n, post [.freed id] { w₁ with memory := b.note n w₁.memory })
    (hbelow : ∀ i (w₁ : World H), P w₁.memory → e.inner = some i → w₁.stack.Sound R → w₁.stack.Clear R i →
      w₁.stack.isAlive i = true → w₁.stack = w.stack.bidden id e → ∀ n, Ends (do
        let _ ← withLayer b A (freeEntry b A k) i (.op .abort)
        freeEntry b A k i
        lift (note b n)) w₁ fun _ u w' => post (.freed id :: u) w') :
    Ends (freeEntry b A (k + 1) id) w fun _ t w' => post t w' := by
  have ha : w.stack.isAlive id = true := isAlive_iff.2 ⟨e, he⟩
  -- no layer at or below the connection runs, so its own is in place
  have hl : e.layer ≠ none := fun hl => hc.not_mem ((hs.home id e he).1 hl)
  unfold freeEntry
  refine (ends_bind _ _).2 ((hdealloc.and (dealloc_ends he hl)).mono ?_)
  rintro _ t w₁ ⟨hleft, rfl, hw₁⟩
  have hsh₁ : w.stack.Shrinks (w.stack.update id fun e => { e with layer := none }) :=
    .of_update (fun _ => rfl) fun _ => rfl
  have hlinked₁ : (w.stack.update id fun e => { e with layer := none }).Linked :=
    hs.toLinked.update (fun _ _ => rfl) fun _ _ => rfl
  have he₁ : (w.stack.update id fun e => { e with layer := none }).find? id = some { e with layer := none } := by
    rw [find?_update_self, he]
    rfl
  have hsound₂ := (hs.enter ha).freed hc.not_mem he₁
  have hleaving : leaving (w.stack.update id fun e => { e with layer := none }) id = [Mark.freed id] := by
    unfold leaving
    rw [isAlive_update, ha, if_pos rfl]
  simp only [ends_bind, ends_lift, ends_getSlots, ends_record, ends_lookup, hw₁, he₁, hleaving, ends_modifySlots]
  cases hi : e.inner with
  | none =>
    have hdone := hlast { w₁ with stack := w.stack.bidden id e } hleft hi rfl
      (.trace "connection freed" [id.field, ("layer", e.name)])
    cases ho : e.outer <;> simpa [bidden, release, letGo, bereave, ho, hi] using hdone
  | some i =>
    obtain ⟨hne, -, -, hout⟩ := hlinked₁.find?_below he₁ hi
    have hon : (w.stack.update id fun e => { e with layer := none }).On id i := (hlinked₁.agree id i).2 hout
    have hclear₁ : (w.stack.update id fun e => { e with layer := none }).Clear R i :=
      (hc.shrinks hsh₁ hs.toLinked hlinked₁).down hon
    have halive₂ : (w.stack.bidden id e).isAlive i = true := by
      obtain ⟨ei, hei, -⟩ := outer?_eq_some.1 hout
      unfold bidden
      rw [hlinked₁.isAlive_release he₁, isAlive_iff.2 ⟨ei, hei⟩]
      simpa using hne
    have hdown : ∀ w₂ : World H, P w₂.memory → w₂.stack = w.stack.bidden id e → Ends (do
          let _ ← withLayer b A (freeEntry b A k) i (.op .abort)
          freeEntry b A k i
          lift (note b (.trace "connection freed" [id.field, ("layer", e.name)]))) w₂ fun _ u w' =>
            post (.freed id :: u) w' := by
      intro w₂ hleft₂ hw₂
      refine hbelow i w₂ hleft₂ hi ?_ ?_ ?_ hw₂ _
      · rw [hw₂]
        exact hsound₂
      · rw [hw₂]
        exact hclear₁.release hlinked₁ he₁
      · rw [hw₂]
        exact halive₂
    -- the connection below still refers to the one that goes, whether there is one above or not
    have hstill := hlinked₁.outer?_letGo he₁ hi
    cases ho : e.outer with
    | none | some =>
      simp only [ho, letGo] at hstill
      simp only [ends_bind, ends_lift, ends_getSlots, ends_modifySlots]
      rw [if_pos hstill]
      refine (ends_bind _ _).2 ?_
      rw [ends_lift, ends_modifySlots]
      refine hdown _ hleft ?_
      simp only [bidden, release, letGo, bereave, ho, hi, hstill, if_true]

end Recorded

end Conduit
