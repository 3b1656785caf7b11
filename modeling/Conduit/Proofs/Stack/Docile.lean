import Conduit.Proofs.Stack.Flat

/-!
# Docile applications

The callbacks of a docile application accept or refuse what they are offered, acknowledge data, and otherwise only look
around and register callbacks. As long as all its connections are plain ones, whatever is delivered to it leaves the net no
more work than there was, and every delivery comes to its end, unless it halts over an amount that no counter can hold.

* `Req.Docile`: what the callbacks may ask.
* `Stack.docile_comes`, `Stack.callback_comes`: what they leave of the connections, and of the work.
* `Stack.drain_comes`: **deliveries come to their end.**
-/

namespace Conduit

open Exec Slots Loopback

variable {H : Host} {b : Behaviour H} {w w' w'' : World H} {x : Handle} {q : List (Queued H)} {α : Type}

/-! ## What a docile application asks -/

/-- A request of a docile application: it acknowledges, looks around, or registers callbacks. -/
def Stack.Req.Docile : Stack.Req H → Prop
  | .ask _ (.recved _) | .register _ _ _ | .clearCallbacks _ | .lookup _ | .slots | .net | .shared | .setShared _
  | .recall | .remember _ | .note _ => True
  | _ => False

/-- An application whose callbacks are docile. -/
def Behaviour.Docile (b : Behaviour H) : Prop := ∀ code call, (b.callback code call).Asks Stack.Req.Docile

namespace Stack

/-! ## Docile callbacks -/

section

variable {p : Bool} {k : Nat}

/-- What the callbacks of a docile application leave: what they have registered, and no more work. -/
structure Tame (w w' : World H) : Prop where
  framed : w.stack.Framed w'.stack
  work : w'.net.work ≤ w.net.work

theorem Tame.refl (w : World H) : Tame w w := ⟨.refl _, Nat.le_refl _⟩

theorem Tame.trans (h : Tame w w') (h' : Tame w' w'') : Tame w w'' :=
  ⟨h.framed.trans h'.framed, Nat.le_trans h'.work h.work⟩

theorem Tame.of_eq (hs : w'.stack = w.stack) (hn : w'.net = w.net) : Tame w w' :=
  ⟨hs ▸ .refl _, hn ▸ Nat.le_refl _⟩

theorem pump_held_comes {A : Answers H} {free : Handle → Exec H Unit} {post : Unit → World H → Prop}
    (hs : w.stack.Calm true q) (h : post () w) : Comes (pump b A free k) w Overflows post := by
  have hheld : (0 < w.stack.depth || w.stack.pumping) = true := by
    rw [hs.pumping, Bool.or_true]
  unfold Comes
  rw [pump_held hheld]
  exact h

/-- A method runs in its slot, and events are delivered. -/
theorem call_comes {A : Answers H} {free : Handle → Exec H Unit} {o : Op} {post : o.Reply → World H → Prop}
    (h : Comes (withLayer b A free x (.op o)) w Overflows fun r w' => Comes (pump b A free k) w' Overflows fun _ w'' =>
      post (match r with | .ok a => a | .error f => o.refused f) w'') : Comes (call b A free k x o) w Overflows post := by
  unfold call
  rw [comes_bind]
  refine h.mono fun r w' hp => ?_
  rw [comes_bind]
  refine hp.mono fun _ w'' hpost => ?_
  cases r with
  | ok a => exact (comes_pure _).2 hpost
  | error f => exact (comes_pure _).2 hpost

theorem withLayer_absent_comes {A : Answers H} {free : Handle → Exec H Unit} {m : Method}
    {post : Except Fault m.Reply → World H → Prop} (hx : w.stack.find? x = none) (h : post (.error .invalidArgument) w) :
    Comes (withLayer b A free x m) w Overflows post := by
  unfold withLayer
  rw [comes_bind, comes_lookup, hx]
  exact (comes_pure _).2 h

theorem recved_tame (hs : w.stack.Calm true q) (len : Nat) :
    Comes (exec b (k + 1) (.ask x (.recved len))) w Overflows fun _ w' => Tame w w' := by
  show Comes (call b (exec b k) (freeEntry b (exec b k) k) k x (.recved len)) w _ _
  refine call_comes ?_
  cases he : w.stack.find? x with
  | none => exact withLayer_absent_comes he (pump_held_comes hs (.refl w))
  | some e =>
    obtain ⟨⟨l, hl⟩, -, -⟩ := hs.plain x e he
    refine (withLayer_comes (m := .op (.recved len)) (d := 0) (Q := fun l' _ q' => l' = l ∧ q' = []) he hl
      fun w₁ => ?_).mono ?_
    · refine (withPcb_comes (.recved len) ()).mono ?_
      rintro r w₂ ⟨hl', hf, hadds⟩
      exact ⟨hf, [], hadds, hl', rfl⟩
    · rintro r w' ⟨a, l', q', rfl, ⟨rfl, rfl⟩, hh⟩
      have hstack : w'.stack = w.stack := by
        rw [hh.stack, List.append_nil]
        refine update_eq_self fun e' he' => ?_
        cases he.symm.trans he'
        rw [← hl]
      exact pump_held_comes (hstack ▸ hs) ⟨hstack ▸ .refl _, hh.work⟩

/-- **What a docile request leaves**, while events are being delivered. -/
theorem docile_comes {r : Req H} (hr : r.Docile) (hs : w.stack.Calm true q) :
    Comes (exec b (k + 1) r) w Overflows fun _ w' => Tame w w' := by
  cases r with
  | ask x o =>
    cases o with
    | recved len => exact recved_tame hs len
    | _ => cases hr
  | register x kind code =>
    show Comes (do
      if (← getSlots).isAlive x then
        modifySlots fun s => s.update x fun e => { e with callbacks := e.callbacks.set kind (some code) }
        pure (.ok ())
      else pure (.error .invalidArgument) : Exec H Outcome) w _ _
    rw [comes_bind, comes_getSlots]
    split
    · rw [comes_bind, comes_modifySlots, comes_pure]
      exact Tame.mk (framed_update fun _ => rfl) (Nat.le_refl _)
    · exact (comes_pure _).2 (.refl w)
  | clearCallbacks x =>
    show Comes (modifySlots fun s => s.clearCallbacks x) w _ _
    rw [comes_modifySlots]
    exact ⟨framed_update fun _ => rfl, Nat.le_refl _⟩
  | lookup x => exact (comes_lookup x).2 (.refl w)
  | slots => exact comes_getSlots.2 (.refl w)
  | net => exact .refl w
  | shared => exact .refl w
  | setShared v => exact .of_eq rfl rfl
  | «recall» => exact .refl w
  | remember m => exact .of_eq rfl rfl
  | note n => exact .of_eq rfl rfl
  | _ => cases hr

theorem program_comes {prog : Act H α} (hp : prog.Asks Req.Docile) (hs : w.stack.Calm true q) :
    Comes (prog.run (exec b (k + 1))) w Overflows fun _ w' => Tame w w' := by
  induction prog generalizing w with
  | done a => exact (comes_pure a).2 (.refl w)
  | ask r next ih =>
    refine (comes_bind _ _).2 ((docile_comes hp.1 hs).mono fun a w' ht => ?_)
    exact (ih a (hp.2 a) (hs.framed ht.framed)).mono fun _ _ ht' => ht.trans ht'

variable (hb : b.Docile)
include hb

/-- **A docile callback** leaves what it has registered, and no more work. -/
theorem callback_comes {kind : CallbackKind} {call : Call} {absent : Exec H Outcome} (hs : w.stack.Calm true q)
    (habsent : Comes absent w Overflows fun _ w' => Tame w w') :
    Comes (callback b (exec b (k + 1)) x kind call absent) w Overflows fun _ w' => Tame w w' := by
  unfold callback
  rw [comes_bind, comes_lookup]
  split
  · exact habsent
  · split
    · exact habsent
    · rename_i e _ code _
      rw [comes_bind, comes_modifySlots, comes_bind]
      have htaken : Tame w { w with stack := w.stack.takeCallback x kind } :=
        ⟨framed_update fun _ => rfl, Nat.le_refl _⟩
      refine (program_comes (hb code call) (hs.framed htaken.framed)).mono fun r w' ht => ?_
      rw [comes_bind, comes_modifySlots, comes_pure]
      refine htaken.trans (ht.trans ⟨framed_update fun e => ?_, Nat.le_refl _⟩)
      split <;> rfl

/-! ## Deliveries -/

omit hb in
/-- A connection is aborted while events are being delivered: its end has to be told to the other side, and to the
application. -/
theorem aborted_comes (hs : w.stack.Calm true q) :
    Comes (exec b (k + 2) (.ask x .abort)) w Overflows fun _ w' => ∃ q', q'.length ≤ 1 ∧ (∀ item ∈ q', Light item) ∧
      w'.stack.Calm true (q ++ q') ∧ w'.net.work ≤ w.net.work + 1 := by
  show Comes (operate b (exec b (k + 1)) (freeEntry b (exec b (k + 1)) (k + 1)) (k + 1) x .abort) w _ _
  unfold operate
  rw [comes_bind, comes_getSlots]
  split
  · rename_i ha
    obtain ⟨e, l, he, hl, hi, ho⟩ := hs.found ha
    rw [comes_bind, comes_note, comes_bind]
    generalize b.note _ w.memory = m
    refine (withLayer_comes (w := { w with memory := m }) (m := .op .abort) (d := 1)
      (Q := fun l' _ q' => l'.pcb = none ∧ q' = []) he hl fun w₁ => ?_).mono ?_
    · refine (abort_comes l).mono ?_
      rintro r w₂ ⟨hf, hp, hadds⟩
      exact ⟨hf, [], hadds, hp, rfl⟩
    · rintro r w' ⟨a, l', q', rfl, ⟨hp, rfl⟩, hh⟩
      have hcalm : w'.stack.Calm true q := by
        have := hh.calm hs
        rwa [List.append_nil] at this
      have hfind : w'.stack.find? x = some { e with layer := some (.plain l') } := hh.find he
      rw [comes_bind, comes_getSlots, if_pos (isAlive_iff.2 ⟨_, hfind⟩), comes_bind]
      unfold enqueue
      rw [comes_modifySlots, comes_bind]
      refine (parted_comes hcalm hfind rfl hp .aborted).mono ?_
      rintro - w'' ⟨item, hitem, hcalm', hnet⟩
      refine pump_held_comes hcalm' ⟨[item], Nat.le_refl _, light_single hitem, hcalm', ?_⟩
      rw [hnet]
      exact hh.work
  · exact (comes_pure _).2 ⟨[], Nat.zero_le _, light_nil, by rwa [List.append_nil], Nat.le_succ _⟩

variable {A : Answers H} {free : Handle → Exec H Unit}

/-- What asks for no reply is told. -/
theorem light_comes {item : Queued H} (hitem : Light item) (hs : w.stack.Calm true q) :
    Comes (deliver b (exec b (k + 1)) free item) w Overflows fun _ w' => Tame w w' := by
  have hcallback : ∀ kind call, Comes (do
      let _ ← callback b (exec b (k + 1)) item.source kind call (pure (.ok ()))
      pure () : Exec H Unit) w Overflows fun _ w' => Tame w w' := fun kind call => by
    rw [comes_bind]
    exact (callback_comes hb hs ((comes_pure _).2 (.refl w))).mono fun _ _ ht => (comes_pure _).2 ht
  unfold deliver
  cases hitem with
  | ended source event code =>
    cases event with
    | error reason =>
      dsimp only
      rw [comes_bind, comes_note]
      cases code with
      | none => exact (comes_pure _).2 (.of_eq rfl rfl)
      | some code =>
        dsimp only
        rw [comes_bind]
        generalize b.note _ w.memory = m
        refine (program_comes (w := { w with memory := m }) (hb code _) hs).mono fun _ w' ht => (comes_pure _).2 ?_
        exact Tame.mk ht.framed ht.work
    | _ => exact (comes_pure _).2 (.refl w)
  | told source event ha hr =>
    dsimp only
    rw [comes_bind, comes_lookup]
    cases he : w.stack.find? source with
    | none => exact (comes_note _).2 (.of_eq rfl rfl)
    | some e =>
      obtain ⟨-, -, ho⟩ := hs.plain source e he
      dsimp only
      rw [ho]
      dsimp only
      cases event with
      | accept new => exact absurd rfl (ha new)
      | recv data => exact absurd rfl (hr data)
      | error reason => exact (comes_pure _).2 (.refl w)
      | connected r => exact hcallback _ _
      | eof => exact hcallback _ _
      | sent len => exact hcallback _ _
      | poll => exact hcallback _ _

/-- Data that is all that its connection holds is taken or refused. -/
theorem data_comes (data : Bytes) (hs : w.stack.Calm true q) (hx : w.stack.OutWhole x) :
    Comes (deliver b (exec b (k + 1)) free ⟨x, .recv data, .resolve⟩) w Overflows fun _ w' => ∃ q', q'.length ≤ 1 ∧
      (∀ item ∈ q', Light item) ∧ w'.stack.Calm true (q ++ q') ∧ w'.net.work ≤ w.net.work := by
  unfold deliver
  dsimp only
  rw [comes_bind, comes_lookup]
  cases he : w.stack.find? x with
  | none => exact (comes_note _).2 ⟨[], Nat.zero_le _, light_nil, by rwa [List.append_nil], Nat.le_refl _⟩
  | some e =>
    obtain ⟨-, -, ho⟩ := hs.plain x e he
    dsimp only
    rw [ho]
    dsimp only
    unfold deliverToApp
    rw [comes_bind]
    refine (callback_comes hb hs ?_).mono fun verdict w' ht => ?_
    · -- nobody receives it
      rw [comes_bind, comes_note, comes_bind]
      generalize b.note _ w.memory = m
      refine (recved_tame (w := { w with memory := m }) hs _).mono fun _ w' ht => (comes_pure _).2 ?_
      exact Tame.mk ht.framed ht.work
    · refine (settled_comes (hs.framed ht.framed) (ht.framed.outWhole hx) verdict).mono ?_
      rintro - w'' ⟨q', hlen, hlight, hcalm, hwork⟩
      exact ⟨q', hlen, hlight, hcalm, Nat.le_trans hwork ht.work⟩

/-- A connection is accepted, or refused and aborted. -/
theorem newcomer_comes (new : Handle) (hs : w.stack.Calm true q) :
    Comes (deliver b (exec b (k + 2)) free ⟨x, .accept new, .resolve⟩) w Overflows fun _ w' => ∃ q', q'.length ≤ 1 ∧
      (∀ item ∈ q', Light item) ∧ w'.stack.Calm true (q ++ q') ∧ w'.net.work ≤ w.net.work + 1 := by
  unfold deliver
  dsimp only
  rw [comes_bind, comes_lookup]
  cases he : w.stack.find? x with
  | none => exact (comes_note _).2 ⟨[], Nat.zero_le _, light_nil, by rwa [List.append_nil], Nat.le_succ _⟩
  | some e =>
    obtain ⟨-, -, ho⟩ := hs.plain x e he
    dsimp only
    rw [ho]
    dsimp only
    unfold deliverToApp
    rw [comes_bind]
    refine (callback_comes hb hs ((comes_pure _).2 (.refl w))).mono fun verdict w' ht => ?_
    have hcalm := hs.framed ht.framed
    cases verdict with
    | ok u =>
      exact (comes_pure _).2 ⟨[], Nat.zero_le _, light_nil, by rwa [List.append_nil], Nat.le_succ_of_le ht.work⟩
    | error f =>
      dsimp only
      rw [comes_bind, comes_note]
      generalize b.note _ w'.memory = m
      refine (aborted_comes (w := { w' with memory := m }) hcalm).mono ?_
      rintro - w'' ⟨q', hlen, hlight, hcalm', hwork⟩
      exact ⟨q', hlen, hlight, hcalm', Nat.le_trans hwork (Nat.add_le_add_right ht.work 1)⟩

omit hb in
/-- One event is delivered, and what is left waits. -/
theorem drain_next_comes {A : Answers H} {j : Nat} {item : Queued H} {post : Unit → World H → Prop}
    (hq : w.stack.queue = item :: q)
    (h : Comes (deliver b A free item) { w with stack := { w.stack with queue := q } } Overflows fun _ w' =>
      Comes (drain b A free j) w' Overflows post) : Comes (drain b A free (j + 1)) w Overflows post := by
  unfold drain
  rw [comes_bind, comes_getSlots, hq]
  dsimp only
  rw [comes_bind, comes_modifySlots, comes_bind]
  exact h

/-- Events that ask for no reply are told one after the other. -/
theorem drain_light_comes {j : Nat} (hq : ∀ item ∈ q, Light item) (hj : q.length < j) (hs : w.stack.Calm true q) :
    Comes (drain b (exec b (k + 1)) free j) w Overflows fun _ w' => w'.stack.Calm true [] ∧ w'.net.work ≤ w.net.work := by
  induction q generalizing j w with
  | nil =>
    cases j with
    | zero => exact absurd hj (Nat.not_lt_zero _)
    | succ j =>
      unfold drain
      rw [comes_bind, comes_getSlots, hs.queue]
      exact (comes_pure _).2 ⟨hs, Nat.le_refl _⟩
  | cons item rest ih =>
    cases j with
    | zero => exact absurd hj (Nat.not_lt_zero _)
    | succ j =>
      refine drain_next_comes hs.queue ?_
      refine (light_comes hb (hq item List.mem_cons_self) hs.rest).mono fun _ w' ht => ?_
      refine (ih (fun i hi => hq i (List.mem_cons_of_mem _ hi)) (Nat.lt_of_succ_lt_succ hj) (hs.rest.framed ht.framed)).mono ?_
      exact fun _ _ h => ⟨h.1, Nat.le_trans h.2 ht.work⟩

/-- **Deliveries come to their end.** The first event may be answered, and an answer may leave one more event. -/
theorem drain_comes {j : Nat} (hq : Laden x (w.stack.OutWhole x) d q) (hj : q.length + 1 < j) (hs : w.stack.Calm true q) :
    Comes (drain b (exec b (k + 2)) free j) w Overflows fun _ w' =>
      w'.stack.Calm true [] ∧ w'.net.work ≤ w.net.work + d := by
  -- after the first
  have hrest : ∀ (w' : World H) (rest q' : List (Queued H)) (j c : Nat), (∀ item ∈ rest, Light item) →
      rest.length + 1 < j → q'.length ≤ 1 → (∀ item ∈ q', Light item) → w'.stack.Calm true (rest ++ q') →
      w'.net.work ≤ w.net.work + c →
      Comes (drain b (exec b (k + 2)) free j) w' Overflows fun _ w'' =>
        w''.stack.Calm true [] ∧ w''.net.work ≤ w.net.work + c := by
    intro w' rest q' j c hl hj hlen hl' hs' hw
    have hlight : ∀ item ∈ rest ++ q', Light item := fun i hi => (List.mem_append.1 hi).elim (hl i) (hl' i)
    refine (drain_light_comes hb hlight (by rw [List.length_append]; omega) hs').mono ?_
    exact fun _ _ h => ⟨h.1, Nat.le_trans h.2 hw⟩
  cases hq with
  | light hl =>
    refine (drain_light_comes hb hl (by omega) hs).mono fun _ _ h => ⟨h.1, Nat.le_trans h.2 (Nat.le_add_right _ _)⟩
  | data hw hl =>
    rename_i data rest
    cases j with
    | zero => exact absurd hj (Nat.not_lt_zero _)
    | succ j =>
      refine drain_next_comes hs.queue
        ((data_comes (w := { w with stack := { w.stack with queue := rest } }) hb data hs.rest hw).mono ?_)
      rintro - w' ⟨q', hlen, hl', hcalm, hwork⟩
      exact hrest w' rest q' j d hl (Nat.lt_of_succ_lt_succ hj) hlen hl' hcalm (Nat.le_trans hwork (Nat.le_add_right _ _))
  | newcomer hl =>
    rename_i d new rest
    cases j with
    | zero => exact absurd hj (Nat.not_lt_zero _)
    | succ j =>
      refine drain_next_comes hs.queue ((newcomer_comes hb new hs.rest).mono ?_)
      rintro - w' ⟨q', hlen, hl', hcalm, hwork⟩
      refine hrest w' rest q' j (d + 1) hl (Nat.lt_of_succ_lt_succ hj) hlen hl' hcalm (Nat.le_trans hwork ?_)
      exact Nat.add_le_add_left (Nat.le_add_left _ _) _

/-- Whatever waits is delivered. -/
theorem pump_comes {j : Nat} (hq : Laden x (w.stack.OutWhole x) d q) (hj : q.length + 1 < j) (hs : w.stack.Calm false q) :
    Comes (pump b (exec b (k + 2)) free j) w Overflows fun _ w' =>
      w'.stack.Calm false [] ∧ w'.net.work ≤ w.net.work + d := by
  have hidle : (0 < w.stack.depth || w.stack.pumping) = false := by
    rw [hs.depth, hs.pumping]
    rfl
  unfold pump
  rw [comes_bind, comes_getSlots, hidle]
  simp only [Bool.false_eq_true, if_false]
  rw [comes_bind, comes_modifySlots, comes_bind]
  refine (drain_comes (w := { w with stack := { w.stack with pumping := true } }) hb hq hj (hs.pumps true)).mono ?_
  rintro - w' ⟨hcalm, hwork⟩
  rw [comes_modifySlots]
  exact ⟨hcalm.pumps false, hwork⟩

/-- **Whatever an engine reports** of an endpoint is brought to its connection and to the application. -/
theorem report_comes (event : Event) (hs : w.stack.Calm false []) :
    Comes (exec b (k + 5) (.ask x (.lower event))) w Overflows fun r w' => (w.stack.isAlive x = true → r = .ok ()) ∧
      w'.stack.Calm false [] ∧ w'.net.work ≤ w.net.work + event.toll := by
  show Comes (operate b (exec b (k + 4)) (freeEntry b (exec b (k + 4)) (k + 4)) (k + 4) x (.lower event)) w _ _
  -- what waits is delivered
  have hpump : ∀ (w' : World H) (d : Nat) (q : List (Queued H)), q.length ≤ 2 → Laden x (w'.stack.OutWhole x) d q →
      w'.stack.Calm false q → w'.net.work ≤ w.net.work → d ≤ event.toll →
      Comes (pump b (exec b (k + 4)) (freeEntry b (exec b (k + 4)) (k + 4)) (k + 4)) w' Overflows fun _ w'' =>
        w''.stack.Calm false [] ∧ w''.net.work ≤ w.net.work + event.toll := by
    intro w' d q hlen hladen hcalm hwork hd
    refine (pump_comes hb hladen (by omega) hcalm).mono fun _ w'' h => ⟨h.1, ?_⟩
    exact Nat.le_trans h.2 (Nat.add_le_add hwork hd)
  unfold operate
  rw [comes_bind, comes_note]
  generalize b.note _ w.memory = m
  refine call_comes ?_
  cases he : w.stack.find? x with
  | none =>
    refine withLayer_absent_comes he ((hpump { w with memory := m } 0 [] (Nat.zero_le _) (.light light_nil) hs
      (Nat.le_refl _) (Nat.zero_le _)).mono fun _ w' h => ⟨fun ha => ?_, h⟩)
    rw [isAlive_eq_false.2 he] at ha
    cases ha
  | some e =>
    cases herror : event.isError with
    | false =>
      refine (lowered_comes (w := { w with memory := m }) hs he herror).mono ?_
      rintro r w' ⟨rfl, q, hlen, hladen, hcalm, hwork⟩
      exact (hpump w' _ q hlen hladen hcalm hwork (Nat.le_refl _)).mono fun _ _ h => ⟨fun _ => rfl, h⟩
    | true =>
      obtain ⟨reason, rfl⟩ : ∃ reason, event = .error reason := by
        cases event with
        | error reason => exact ⟨reason, rfl⟩
        | _ => cases herror
      refine (ended_comes (w := { w with memory := m }) hs he reason).mono ?_
      rintro r w' ⟨rfl, item, hlight, hcalm, hnet⟩
      exact (hpump w' 0 [item] (Nat.le_succ 1) (.light (light_single hlight)) hcalm (Nat.le_of_eq (congrArg _ hnet))
        (Nat.zero_le _)).mono fun _ _ h => ⟨fun _ => rfl, h⟩

end

end Stack

end Conduit
