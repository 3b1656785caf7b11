import Conduit.Proofs.Stack.Site
import Conduit.Proofs.Tls.Carries

/-!
# Applications that receive

An application that accepts all that comes and acknowledges it, and does nothing else.

* `Acknowledges`: a program that acknowledges so much at least.
* `Receives`: the callbacks of such an application; an `Ear` tells what they have got.
* `callback_ends`: such a callback, called in the stack.
-/

namespace Conduit

open Exec Loopback

namespace Stack

variable {H : Host}

/-- A program that acknowledges at least `n` bytes to `me`, and may write and read what the application keeps. -/
inductive Acknowledges {α : Type} (me : Handle) (P : α → Prop) : Nat → Program (Stack.io H) α → Prop
  | done {a : α} (h : P a) : Acknowledges me P 0 (.done a)
  | recved {n m : Nat} {next : Unit → Program (Stack.io H) α} (h : Acknowledges me P (n - m) (next ())) :
      Acknowledges me P n (.ask (.ask me (.recved m)) next)
  | memory {n : Nat} {next : H.Memory → Program (Stack.io H) α} (h : ∀ v, Acknowledges me P n (next v)) :
      Acknowledges me P n (.ask .recall next)
  | remember {n : Nat} {v : H.Memory} {next : Unit → Program (Stack.io H) α} (h : Acknowledges me P n (next ())) :
      Acknowledges me P n (.ask (.remember v) next)
  | note {n : Nat} {t : Note} {next : Unit → Program (Stack.io H) α} (h : Acknowledges me P n (next ())) :
      Acknowledges me P n (.ask (.note t) next)

/-- Callbacks that listen, and what each has got, which is in the state that it has captured. -/
structure Ear (H : Host) where
  listens : H.Code → Prop
  heard : H.Code → Bytes

/-- Callbacks that accept all data and acknowledge it. -/
structure Receives (b : Behaviour H) (ear : Ear H) : Prop where
  recv : ∀ {c : H.Code} (me : Handle) (text : Bytes), ear.listens c →
    Acknowledges me (fun r => r.2 = .ok () ∧ ear.listens r.1 ∧ ear.heard r.1 = ear.heard c ++ text) text.length
      (b.callback c (.recv me (some text)))
  sent : ∀ {c : H.Code} (me : Handle) (n : Nat), ear.listens c →
    Acknowledges me (fun r => ear.listens r.1) 0 (b.callback c (.sent me n))

variable {b : Behaviour H} {C : Tls.Coupling H.Engine} {x : Site} {w w' : World H} {e d : Entry H}
  {l : Tls.Layer H.Source H.Engine} {g : Plain H.Pcb} {s : Tls.Session H.Engine} {f : H.Engine} {far near : Bytes}
  {i k n : Nat} {due : Prop}

theorem pump_busy {answers : Answers H} {free : Handle → Exec H Unit} (h : w.stack.pumping = true)
    {P : Unit → World H → Prop} (hp : P () w) : Ends (pump b answers free k) w P := by
  unfold pump
  simp only [ends_bind, ends_getSlots, h, Bool.or_true, if_true, ends_pure]
  exact hp

/-- What is remembered is not seen at a site. -/
theorem Site.Stands.remembered (hs : x.Stands w e d l g) (m : H.Memory) : x.Stands { w with memory := m } e d l g :=
  ⟨hs.upper, hs.lower, hs.secure, hs.plain, hs.inner, hs.uppermost, hs.outer, hs.pcb, hs.endpoint⟩

theorem Site.Stands.remembers (hs : x.Stands w e d l g) (m : H.Memory) :
    Becomes x.tls (.secure l) x.pcb w (w.net.pcb x.pcb) [] { w with memory := m } :=
  ⟨(Becomes.refl (i := x.pcb) hs.upper hs.secure).alike, (List.append_nil _).symm, (Net.update_self _ _).symm⟩

/-- One acknowledgement, while events are being delivered. -/
theorem recved_ends {m : Nat} (hs : x.Stands w e d l g) (hx : x.tls ≠ x.tcp) (hpump : w.stack.pumping = true)
    (hp : l.phase = .established) (hl : l.session = some s)
    (hc : Tls.Carries b.engine C w.net.options f far near i due s (w.net.pcb x.pcb)) :
    Ends (exec b k (.ask x.tls (.recved m))) w fun _ w' => ∃ q,
      Tls.Kept b.engine C w.net.options f far near i due s { s with passedUnrecved := s.passedUnrecved - m }
        (w.net.pcb x.pcb) q ∧
      Becomes x.tls (.secure (l.holding { s with passedUnrecved := s.passedUnrecved - m })) x.pcb w q [] w' := by
  cases k with
  | zero => exact ends_throw _
  | succ k =>
    show Ends (call b (exec b k) (freeEntry b (exec b k) k) k x.tls (.recved m)) w _
    unfold call
    rw [ends_bind]
    refine (hs.secure_ends (m := .op (.recved m))
      (P := fun _ l' q es => (l' = l.holding { s with passedUnrecved := s.passedUnrecved - m } ∧ es = []) ∧
        Tls.Kept b.engine C w.net.options f far near i due s { s with passedUnrecved := s.passedUnrecved - m }
          (w.net.pcb x.pcb) q) hx ?_).mono ?_
    · exact Tls.recved_fares hc hp hl fun q hk => ⟨⟨rfl, rfl⟩, hk⟩
    · rintro r w' ⟨y, l', q, es, rfl, ⟨⟨rfl, rfl⟩, hk⟩, hw⟩
      rw [ends_bind]
      refine pump_busy (hw.alike.pumping.trans hpump) ?_
      exact (ends_pure _).2 ⟨q, hk, hw⟩

/-- **A program that acknowledges**, run while events are being delivered: what was handed up is owed no longer. -/
theorem acknowledges_ends {α : Type} {P : α → Prop} {m : Program (Stack.io H) α} (h : Acknowledges x.tls P n m)
    (hs : x.Stands w e d l g) (hx : x.tls ≠ x.tcp) (hpump : w.stack.pumping = true) (hp : l.phase = .established)
    (hl : l.session = some s) (hc : Tls.Carries b.engine C w.net.options f far near i due s (w.net.pcb x.pcb))
    (hn : s.passedUnrecved ≤ n) :
    Ends (m.run (exec b k)) w fun a w' => P a ∧ ∃ q,
      Tls.Kept b.engine C w.net.options f far near i due s { s with passedUnrecved := 0 } (w.net.pcb x.pcb) q ∧
      Becomes x.tls (.secure (l.holding { s with passedUnrecved := 0 })) x.pcb w q [] w' := by
  induction h generalizing w e l s with
  | @done a h =>
    rw [Program.run_done, ends_pure]
    have h0 : s = { s with passedUnrecved := 0 } := by
      have : s.passedUnrecved = 0 := by omega
      rw [← this]
    have hself : l.holding s = l := by
      unfold Tls.Layer.holding
      rw [← hl]
    rw [← h0, hself]
    exact ⟨h, _, ⟨hc, .refl _, rfl, rfl, Iff.rfl⟩, .refl hs.upper hs.secure⟩
  | @recved n m next h ih =>
    rw [Program.run_ask, ends_bind]
    refine (recved_ends hs hx hpump hp hl hc).mono ?_
    rintro ⟨⟩ w₁ ⟨q, hk, hw⟩
    have hs₁ := hs.secured hx hw
    have hpcb := hw.pcb hs.endpoint
    have hc₁ := hk.carries
    have ho : w₁.net.options = w.net.options := by rw [hw.net, Net.options_update]
    rw [← hpcb, ← ho] at hc₁
    refine (ih hs₁ (hw.alike.pumping.trans hpump) hp rfl hc₁ (by show s.passedUnrecved - m ≤ n - m; omega)).mono ?_
    rintro a w' ⟨ha, q', hk', hw'⟩
    rw [hpcb, ho] at hk'
    exact ⟨ha, q', hk.trans hk', hw.trans hw'⟩
  | memory h ih =>
    rw [Program.run_ask, ends_bind]
    cases k with
    | zero => exact ends_throw _
    | succ k =>
      show Ends ((fun w => w.memory) <$> (get : Exec H (World H))) w _
      rw [ends_map, ends_get]
      exact ih _ hs hpump hp hl hc hn
  | @remember n v next h ih =>
    rw [Program.run_ask, ends_bind]
    cases k with
    | zero => exact ends_throw _
    | succ k =>
      show Ends (modify fun w => { w with memory := v }) w _
      rw [ends_modify]
      refine (ih (hs.remembered v) hpump hp hl hc hn).mono ?_
      rintro a w' ⟨ha, q, hk, hw⟩
      exact ⟨ha, q, hk, (hs.remembers v).trans hw⟩
  | @note n t next h ih =>
    rw [Program.run_ask, ends_bind]
    cases k with
    | zero => exact ends_throw _
    | succ k =>
      show Ends (note b t) w _
      rw [ends_note]
      refine (ih (hs.remembered (b.note t w.memory)) hpump hp hl hc hn).mono ?_
      rintro a w' ⟨ha, q, hk, hw⟩
      exact ⟨ha, q, hk, (hs.remembers _).trans hw⟩

/-! ## Calling a callback -/

section Callbacks

variable {K : Type} {cs : Callbacks K} {kind : CallbackKind}

theorem Callbacks.set_set (u v : Option K) : (cs.set kind u).set kind v = cs.set kind v := by
  cases kind <;> rfl

end Callbacks

/-- The callbacks of a connection have changed. -/
theorem Site.Stands.called {e' : Entry H} (hs : x.Stands w e d l g) (hx : x.tls ≠ x.tcp) {F : Entry H → Entry H}
    (he : F e = e') (hl : e'.layer = e.layer) (hi : e'.inner = e.inner) (ho : e'.outer = e.outer) :
    x.Stands { w with stack := w.stack.update x.tls F } e' d l g := by
  refine ⟨?_, ?_, hl.trans hs.secure, hs.plain, hi.trans hs.inner, ho.trans hs.uppermost, hs.outer, hs.pcb, hs.endpoint⟩
  · show (w.stack.update x.tls F).find? x.tls = some e'
    rw [Slots.find?_update_self, hs.upper, ← he]
    rfl
  · show (w.stack.update x.tls F).find? x.tcp = some d
    rw [Slots.find?_update_of_ne hx.symm]
    exact hs.lower

theorem Site.Stands.calls (F : Entry H → Entry H) (w : World H) :
    x.Beside w { w with stack := w.stack.update x.tls F } :=
  ⟨fun _ h _ => Slots.find?_update_of_ne h, rfl, rfl, _, (Net.update_self _ _).symm⟩

/-- **A callback that acknowledges**, called while events are being delivered. It is put back with what it has
captured. -/
theorem callback_ends {kind : CallbackKind} {c : H.Code} {v : Call} {absent : Exec H Outcome}
    {P : H.Code × Outcome → Prop} (hget : e.callbacks.get kind = some c) (hs : x.Stands w e d l g)
    (hx : x.tls ≠ x.tcp) (h : Acknowledges x.tls P n (b.callback c v)) (hpump : w.stack.pumping = true)
    (hp : l.phase = .established) (hl : l.session = some s)
    (hc : Tls.Carries b.engine C w.net.options f far near i due s (w.net.pcb x.pcb)) (hn : s.passedUnrecved ≤ n) :
    Ends (callback b (exec b k) x.tls kind v absent) w fun r w' => ∃ c' e', P (c', r) ∧
      Tls.Kept b.engine C w.net.options f far near i due s { s with passedUnrecved := 0 } (w.net.pcb x.pcb)
        (w'.net.pcb x.pcb) ∧
      x.Stands w' e' d (l.holding { s with passedUnrecved := 0 }) g ∧
      e'.callbacks = e.callbacks.set kind (some c') ∧ x.Beside w w' ∧ w'.stack.queue = w.stack.queue := by
  unfold callback
  simp only [ends_bind, ends_lookup, hs.upper, hget, ends_modifySlots]
  have hs₁ := hs.called (F := fun e => { e with callbacks := e.callbacks.set kind none }) hx rfl rfl rfl rfl
  refine (acknowledges_ends h hs₁ hx hpump hp hl hc hn).mono ?_
  rintro ⟨c', r⟩ w₂ ⟨hr, q, hk, hw⟩
  have hs₂ := hs₁.secured hx hw
  have hpcb : w₂.net.pcb x.pcb = q := hw.pcb hs₁.endpoint
  simp only [ends_pure]
  refine ⟨c', _, hr, ?_, hs₂.called (F := fun e' => if e'.epoch = e.epoch && (e'.callbacks.get kind).isNone then
    { e' with callbacks := e'.callbacks.set kind (some c') } else e') hx (if_pos ?_) rfl rfl rfl, ?_, ?_, ?_⟩
  · show Tls.Kept _ _ _ _ _ _ _ _ _ _ _ (w₂.net.pcb x.pcb)
    rw [hpcb]
    exact hk
  · simp [Callbacks.get_set]
  · exact Callbacks.set_set _ _
  · exact ((Site.Stands.calls _ w).trans (Site.beside_of_becomes hw (.inl rfl))).trans (Site.Stands.calls _ w₂)
  · show w₂.stack.queue = w.stack.queue
    rw [hw.queue]
    exact List.append_nil _

end Stack

end Conduit
