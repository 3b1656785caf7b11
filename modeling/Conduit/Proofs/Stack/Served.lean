import Conduit.Proofs.Layer.Fares
import Conduit.Proofs.Loopback.Net
import Conduit.Proofs.Stack.Ends

/-!
# How the stack serves a layer

A layer that runs over a plain connection over an endpoint of the loopback net finds the surroundings that
`Layer.Act.Fares` speaks of.

* `Over`: which endpoint is below a connection.
* `Shifts`: what becomes of a world when the layer of a connection runs.
* `fares_ends`: a program that fares well over the endpoint runs so in the stack.
-/

namespace Conduit

open Exec Loopback

namespace Stack

variable {H : Host} {b : Behaviour H} {me low : Handle} {i k : Nat} {w w' w'' : World H} {p q : Pcb} {es fs : List Event}

/-- The connection `low` has a plain layer over the endpoint `i`, and its layer is at home. -/
def Plainly (low : Handle) (i : Nat) (s : Slots H) : Prop :=
  ∃ e l, s.find? low = some e ∧ e.layer = some (.plain l) ∧ l.pcb = some (.loopback i)

/-- While a layer runs, the connection `me` stands on `low`, which is over the endpoint `i`. -/
structure Over (me low : Handle) (i : Nat) (w : World H) : Prop where
  inner : (w.stack.find? me).bind (·.inner) = some low
  plainly : Plainly low i w.stack
  running : 0 < w.stack.depth
  endpoint : i < w.net.pcbs.size

/-- The endpoint `i` has become `q`, and `me` has emitted `es`; nothing else has changed but what is remembered. -/
structure Shifts (me : Handle) (i : Nat) (w : World H) (q : Pcb) (es : List Event) (w' : World H) : Prop where
  alike : w.stack.Alike w'.stack
  queue : w'.stack.queue = w.stack.queue ++ es.map fun e => ⟨me, e, .resolve⟩
  net : w'.net = w.net.update i fun _ => q

theorem Shifts.refl (me : Handle) (i : Nat) (w : World H) : Shifts me i w (w.net.pcb i) [] w :=
  ⟨.refl _, by simp, (Net.update_self _ _).symm⟩

theorem Shifts.trans (h : Shifts me i w p es w') (h' : Shifts me i w' q fs w'') : Shifts me i w q (es ++ fs) w'' :=
  ⟨h.alike.trans h'.alike, by rw [h'.queue, h.queue, List.map_append, List.append_assoc],
    by rw [h'.net, h.net, Net.update_update fun _ => rfl]⟩

theorem Over.shifts (h : Over me low i w) (hs : Shifts me i w q es w') : Over me low i w' := by
  obtain ⟨e, l, he, hl, hp⟩ := h.plainly
  refine ⟨by rw [hs.alike.find?]; exact h.inner, ⟨e, l, by rw [hs.alike.find?]; exact he, hl, hp⟩,
    by rw [hs.alike.depth]; exact h.running, by rw [hs.net, Net.size_update]; exact h.endpoint⟩

theorem Shifts.pcb (hs : Shifts me i w q es w') (hi : i < w.net.pcbs.size) : w'.net.pcb i = q := by
  rw [hs.net, Net.pcb_update_self hi]

theorem Shifts.options (hs : Shifts me i w q es w') : w'.net.options = w.net.options := by
  rw [hs.net, Net.options_update]

/-! ## Running a method -/

/-- A world in which a layer has been taken out of its slot. -/
def entered (id : Handle) (w : World H) : World H :=
  { w with stack := { w.stack.update id fun e => { e with layer := none } with depth := w.stack.depth + 1 } }

/-- A method of a layer that is at home runs, and the layer is put back. -/
theorem withLayer_ends {answers : Answers H} {free : Handle → Exec H Unit} {id : Handle} {m : Method} {e : Entry H}
    {layer : Layer H} {post : Except Fault m.Reply → World H → Prop} (he : w.stack.find? id = some e)
    (hl : e.layer = some layer)
    (h : Ends ((runMethod b answers id m layer).run false) (entered id w) fun r w' =>
      r.2 = false ∧ (entered id w).stack.Alike w'.stack ∧
        ∀ w'', w''.net = w'.net → w''.stack.queue = w'.stack.queue →
          (w.stack.update id fun e => { e with layer := some r.1.1 }).Alike w''.stack → post (.ok r.1.2) w'') :
    Ends (withLayer b answers free id m) w post := by
  unfold withLayer
  simp only [ends_bind, ends_lookup, he, hl, ends_modifySlots]
  refine h.mono ?_
  rintro ⟨⟨layer', reply⟩, release⟩ w' ⟨rfl, ha, hp⟩
  have hin : (entered id w).stack.find? id = some { e with layer := none } := by
    show (w.stack.update id _).find? id = _
    rw [Slots.find?_update_self, he]
    rfl
  have hw' := ha.find? id
  rw [hin] at hw'
  have halive : Slots.isAlive { w'.stack with depth := w'.stack.depth - 1 } id = true := by
    show (w'.stack.find? id).isSome = true
    rw [hw']
    rfl
  simp only [ends_bind, ends_modifySlots, ends_getSlots, halive, if_true, Bool.false_eq_true, if_false, ends_pure]
  refine hp _ rfl rfl ⟨fun other => ?_, ?_, ?_⟩
  · show (w'.stack.update id _).find? other = (w.stack.update id _).find? other
    rw [Slots.find?_update, Slots.find?_update, hw', he]
    split
    · rfl
    · rename_i hne
      rw [ha.find?]
      show (w.stack.update id _).find? other = _
      rw [Slots.find?_update_of_ne hne]
  · show w'.stack.depth - 1 = w.stack.depth
    rw [ha.depth]
    rfl
  · exact ha.pumping

theorem performPcb_ends {o : PcbOp} {post : o.Reply → World H → Prop}
    (h : ∀ r m, w.net.perform i o = .ok r → post r.value { w with net := r.net, memory := m }) :
    Ends (performPcb b (.loopback i) o) w post := by
  unfold performPcb
  simp only [ends_bind, ends_get]
  split
  · exact ends_throw _
  · rename_i r hr
    simp only [ends_bind, ends_modify]
    exact ends_notes _ fun m => (ends_pure _).2 (h r m hr)

/-- A method of the plain layer that is one operation on its endpoint. -/
theorem runMethod_pcb {answers : Answers H} {m : Method} {l : Plain H.Pcb} {o : PcbOp} {f : o.Reply → m.Reply}
    (hm : Plain.step low m l = .ask (.pcb (.loopback i) o) fun x => .done (f x, l))
    {post : (Layer H × m.Reply) × Bool → World H → Prop}
    (h : ∀ r mem, w.net.perform i o = .ok r →
      post ((.plain l, f r.value), false) { w with net := r.net, memory := mem }) :
    Ends ((runMethod b answers low m (.plain l)).run false) w post := by
  unfold runMethod
  rw [ends_run_bind]
  show Ends (((Plain.step low m l).run (answerLayer b answers low)).run false) w _
  rw [hm, Program.run_ask, ends_run_bind]
  simp only [answerLayer, ends_run_lift, Program.run_done, ends_run_pure]
  exact performPcb_ends h

/-- An operation on the connection below a layer that runs, when it is one operation on the endpoint. -/
theorem call_ends {answers : Answers H} {free : Handle → Exec H Unit} {o : Op} {c : PcbOp} {f : c.Reply → o.Reply}
    (hov : Over me low i w)
    (hstep : ∀ l : Plain H.Pcb, l.pcb = some (.loopback i) →
      Plain.step low (.op o) l = .ask (.pcb (.loopback i) c) fun x => .done (f x, l))
    {x : o.Reply} (hr : ∀ r, w.net.perform i c = .ok r → f r.value = x ∧ r.net = w.net.update i fun _ => q) :
    Ends (call b answers free k low o) w fun y w' => y = x ∧ Shifts me i w q [] w' := by
  obtain ⟨e, l, he, hl, hp⟩ := hov.plainly
  unfold call
  simp only [ends_bind]
  refine withLayer_ends he hl (runMethod_pcb (w := entered low w) (hstep l hp) fun r mem hr₀ =>
    ⟨rfl, .refl _, fun w'' hnet hqueue ha => ?_⟩)
  obtain ⟨hx, hq⟩ := hr r hr₀
  -- the layer below is as it was, so nothing is seen to have changed
  have hback : w.stack.Alike (w.stack.update low fun e => { e with layer := some (.plain l) }) := by
    refine ⟨fun id => ?_, rfl, rfl⟩
    rw [Slots.find?_update, he]
    split
    · rename_i h
      rw [h, he, Option.map_some, ← hl]
    · rfl
  have halike := hback.trans ha
  have hdepth : (decide (0 < w''.stack.depth) || w''.stack.pumping) = true := by
    rw [halike.depth]
    simp [hov.running]
  unfold pump
  simp only [ends_bind, ends_getSlots, hdepth, if_true, ends_pure]
  refine ⟨hx, halike, ?_, hnet.trans hq⟩
  rw [hqueue]
  exact (List.append_nil _).symm

/-! ## Requests -/

theorem withPcb_eq {l : Plain H.Pcb} {r : PcbRef H.Pcb} (h : l.pcb = some r) (o : PcbOp) (absent : o.Reply) :
    (Plain.withPcb o absent : Plain.Act H o.Reply) l = .ask (.pcb r o) fun x => .done (x, l) := by
  cases l
  cases h
  rfl

/-- What is asked of the connection below is answered as its endpoint serves it. -/
theorem ask_ends (hov : Over me low i w) {o : Op} {x : o.Reply} {es : List Event}
    (hs : Serves (H := H) w.net.options low (.ask low o) (w.net.pcb i) x q es) :
    Ends (exec b k (.ask low o)) w fun y w' => y = x ∧ es = [] ∧ Shifts me i w q [] w' := by
  cases k with
  | zero => exact ends_throw _
  | succ k =>
    have hsame := (Net.update_self w.net i).symm
    cases hs with
    | sndbuf =>
      refine Ends.mono (call_ends (o := .sndbuf) (c := .sndbuf) (f := fun n => n) (x := (w.net.pcb i).room w.net.options)
        hov (fun l hl => withPcb_eq hl _ _) ?_) fun y w' h => ⟨h.1, rfl, h.2⟩
      rintro r ⟨⟩
      exact ⟨rfl, hsame⟩
    | output =>
      refine Ends.mono (call_ends (o := .output) (c := .output) (f := fun n => n) (x := .ok ())
        hov (fun l hl => withPcb_eq hl _ _) ?_) fun y w' h => ⟨h.1, rfl, h.2⟩
      rintro r ⟨⟩
      exact ⟨rfl, hsame⟩
    | write _ d f ho hd hr =>
      have hwrite : w.net.write i d = (w.net.update i fun _ => (w.net.pcb i).wrote d, .ok ()) := by
        have hstate : ((decide ((w.net.pcb i).state ≠ .established) && decide ((w.net.pcb i).state ≠ .closeWait)) ||
            (w.net.pcb i).finQueued) = false := by
          rcases ho with ⟨h | h, hf⟩ <;> simp [h, hf]
        unfold Net.write
        unfold Pcb.room at hr
        simp only [hstate, Bool.false_eq_true, if_false, List.isEmpty_iff, hd, Nat.not_lt.2 hr]
        exact congrArg (·, _) (Net.update_congr rfl)
      refine Ends.mono (call_ends (o := .write d f) (c := .write d f) (f := fun n => n) (x := .ok ())
        hov (fun l hl => withPcb_eq hl _ _) ?_) fun y w' h => ⟨h.1, rfl, h.2⟩
      intro r hr
      have : r = ⟨(w.net.write i d).1, [], (w.net.write i d).2⟩ := by
        cases hr
        rfl
      rw [this, hwrite]
      exact ⟨rfl, rfl⟩
    | recved _ n =>
      refine Ends.mono (call_ends (o := .recved n) (c := .recved n) (f := fun n => n) (x := ())
        hov (fun l hl => withPcb_eq hl _ _) ?_) fun y w' h => ⟨h.1, rfl, h.2⟩
      intro r hr
      refine ⟨rfl, ?_⟩
      change (w.net.recved i n).map _ = _ at hr
      unfold Net.recved at hr
      split at hr
      · cases hr
      · cases hr
        exact Net.update_congr rfl

/-- What a layer asks is answered as the endpoint below serves it. -/
theorem answer_ends {flag : Bool} (hov : Over me low i w) {r : Layer.Req H}
    (hr : H.Shared → ∃ x q es, Serves w.net.options low r (w.net.pcb i) x q es) :
    Ends ((answerLayer b (exec b k) me r).run flag) w fun x w' =>
      x.2 = flag ∧ ∃ q es, Serves w.net.options low r (w.net.pcb i) x.1 q es ∧ Shifts me i w q es w' := by
  have hstay : ∀ m v, Shifts me i w (w.net.pcb i) [] { w with memory := m, shared := v } := fun m v =>
    ⟨.refl _, by simp, (Net.update_self _ _).symm⟩
  obtain ⟨x, q, es, hs⟩ := hr w.shared
  cases r with
  | inner =>
    simp only [answerLayer, ends_run_bind, ends_run_lift, ends_lookup, ends_run_pure]
    rw [hov.inner]
    exact ⟨trivial, _, _, .inner _, .refl ..⟩
  | ask id o =>
    have hid : id = low := by
      cases hs <;> rfl
    subst hid
    simp only [answerLayer, ends_run_lift]
    refine (ask_ends hov hs).mono ?_
    rintro y w' ⟨rfl, rfl, hw⟩
    exact ⟨trivial, _, _, hs, hw⟩
  | emit e =>
    cases hs with
    | emit _ _ he =>
      simp only [answerLayer, ends_run_lift, enqueue, ends_modifySlots]
      refine ⟨trivial, _, _, .emit _ e he, ?_⟩
      have hq : w.stack.enqueue me e = { w.stack with queue := w.stack.queue ++ [⟨me, e, .resolve⟩] } := by
        unfold Slots.enqueue
        split
        · rename_i f
          exact absurd rfl (he f)
        · rfl
      rw [hq]
      exact ⟨⟨fun _ => rfl, rfl, rfl⟩, rfl, (Net.update_self _ _).symm⟩
  | note n =>
    simp only [answerLayer, ends_run_lift, ends_note]
    exact ⟨trivial, _, _, .note _ n, hstay _ _⟩
  | shared =>
    rintro ⟨v, flag'⟩ w' ⟨⟩
    exact ⟨rfl, _, _, .shared _ _, hstay _ _⟩
  | setShared v =>
    rintro ⟨v, flag'⟩ w' ⟨⟩
    exact ⟨rfl, _, _, .setShared _ _, hstay _ _⟩
  | _ => cases hs

/-- **A program that fares well over an endpoint runs so in the stack.** -/
theorem fares_ends {flag : Bool} {α : Type} {m : Program (Layer.io H) α} {post : α → Pcb → List Event → Prop}
    (hov : Over me low i w) (h : m.Fares w.net.options low (w.net.pcb i) post) :
    Ends ((m.run (answerLayer b (exec b k) me)).run flag) w fun x w' =>
      x.2 = flag ∧ ∃ q es, post x.1 q es ∧ Shifts me i w q es w' := by
  induction m generalizing w post with
  | done a =>
    rw [Program.run_done, ends_run_pure]
    exact ⟨rfl, _, _, h, .refl ..⟩
  | ask r next ih =>
    rw [Program.run_ask, ends_run_bind]
    refine (answer_ends hov h.1).mono ?_
    rintro ⟨x, flag'⟩ w' ⟨rfl, q, es, hs, hw⟩
    -- the endpoint is left as it was served, and the rest fares well over that
    have hnext := h.2 x q es hs
    rw [← hw.options, ← hw.pcb hov.endpoint] at hnext
    refine (ih x (hov.shifts hw) hnext).mono ?_
    rintro ⟨a, flag''⟩ w'' ⟨rfl, q', fs, hp, hw'⟩
    exact ⟨rfl, q', es ++ fs, hp, hw.trans hw'⟩

end Stack

end Conduit
