import Conduit.Proofs.Stack.Aborts
import Conduit.Proofs.Stack.Comes
import Conduit.Proofs.Stack.Stream

/-!
# How a connection is left that has lost its session

A TLS connection whose session fails tells its last words and lets go of all that is below. It stays for the application
to close, with nothing below. But if what was below has refused to close and was aborted, its last event comes afterwards,
and takes the connection along.

* `Stack.Parted`: how a connection is left that has lost its session.
* `Stack.Stranded`, `Stack.Outlook`: a connection whose session has failed, with nothing below, and what comes of it.
* `Stack.withLayer_parts`: a method that runs the engine does not lose the session, or leaves the connection so.
* `Stack.session_parts`: **how a connection loses its session, and what comes of it then.**
-/

namespace Conduit

open Exec

variable {H : Host} {b : Behaviour H}

/-- A run that comes to something comes to what every run that ends does. -/
theorem Exec.Comes.and_ends {α : Type} {x : Exec H α} {w : World H} {stop : Halt → World H → Prop}
    {post post' : α → World H → Prop} (h : Comes x w stop post') (h' : Ends x w post) :
    Comes x w stop fun a w' => post' a w' ∧ post a w' := by
  unfold Comes at h ⊢
  cases hx : x w with
  | ok a w' =>
    rw [hx] at h
    exact ⟨h, h' a w' hx⟩
  | error e w' =>
    rw [hx] at h
    exact h

/-- It does not matter what was in the slot of a connection that is cleared away. -/
theorem Slots.Cleared.of_own {s s₁ s' : Slots H} {id : Handle} (h : Cleared id [] s₁ s')
    (hrest : ∀ x, x ≠ id → s₁.find? x = s.find? x) (hout : s₁.outer? id = s.outer? id) (hq : s₁.queue = s.queue)
    (hd : s₁.depth = s.depth) (hp : s₁.pumping = s.pumping) : Cleared id [] s s' := by
  have hne : ∀ {x : Handle}, x ∉ [id] → x ≠ id := fun h => by simpa using h
  refine ⟨h.gone, fun o hmem ho => ?_, fun x hmem hx => ?_, h.queue.trans hq, h.depth.trans hd, h.pumping.trans hp⟩
  · rw [h.above o hmem (hout.trans ho), hrest o (hne hmem)]
  · rw [h.rest x hmem (hout ▸ hx), hrest x (hne hmem)]

namespace Stack

open Slots

variable {w : World H} {A : Answers H} {free : Handle → Exec H Unit} {s s' s₁ : Slots H} {id y z : Handle}
  {ys : List Handle} {e : Entry H} {l : Tls.Layer H.Source H.Engine} {m : Method} {x : Outcome} {k n : Nat}
  {stop : Halt → World H → Prop}

/-! ## Connections with nothing below -/

/-- A TLS connection whose session has failed, with nothing below. -/
structure Stranded (s : Slots H) (id : Handle) (e : Entry H) (l : Tls.Layer H.Source H.Engine) : Prop where
  here : s.find? id = some e
  layer : e.layer = some (.secure l)
  lapsed : l.Lapsed
  inner : e.inner = none
  apart : e.outer ≠ some id

theorem Stranded.away (h : Stranded s id e l) : (s.away id).find? id = some (bare e) :=
  find?_away_self h.here

/-- It is closed or called, and stays what it is: only its layer is another, and perhaps something is told. -/
theorem Stranded.stays (h : Stranded w.stack id e l) (hm : m.quits = false) :
    Ends (withLayer b A free id m) w fun _ w' => ∃ l' out,
      w'.stack = (w.stack.update id fun e => { e with layer := some (.secure l') }).posted (told id out) ∧
      Stranded w'.stack id { e with layer := some (.secure l') } l' ∧ (m.isLower = false → out = []) := by
  have hstep : Layer.Act.Founders id (Secure.step b.engine id m) l (.fallen (.ok ()) []) [] fun _ l' _ out =>
      l'.Lapsed ∧ (m.isLower = false → out = []) := Secure.step_lapsed h.lapsed hm
  refine ends_withLayer h.here h.layer (ends_run_map ((fallen_ends (w := { w with stack := w.stack.away id }) (e := bare e)
    hstep h.away h.inner).mono ?_))
  rintro ⟨⟨r, l'⟩, flag⟩ w₁ ⟨rfl, out, ⟨hlapsed, hout⟩, hw₁⟩
  have hfound : w₁.stack.find? id = some (bare e) := by
    rw [hw₁]
    exact h.away
  refine ⟨isAlive_iff.2 ⟨_, hfound⟩, (ends_pure _).2 ?_⟩
  have hback : w₁.stack.back id (.secure l') =
      (w.stack.update id fun e => { e with layer := some (.secure l') }).posted (told id out) := by
    rw [hw₁, ← back_away]
    rfl
  refine ⟨l', out, hback, ⟨?_, rfl, hlapsed, h.inner, h.apart⟩, hout⟩
  show (w₁.stack.back id (.secure l')).find? id = _
  rw [find?_back, if_pos rfl, hfound]
  rfl

/-- Nothing can be written any more. -/
theorem Stranded.written (h : Stranded w.stack id e l) (data : Bytes) (flags : WriteFlags) :
    Comes (withLayer b A free id (.op (.write data flags))) w stop fun r w' => r = .ok (.error .closed) ∧ w' = w := by
  refine comes_withLayer h.here h.layer (comes_run_map ?_)
  show Comes ((((Secure.write b.engine id data).run l).run (answerLayer b A id)).run false) _ stop _
  unfold Secure.write
  simp only [comes_act_bind, comes_act_get, h.lapsed.phase, comes_act_pure]
  refine ⟨isAlive_iff.2 ⟨_, h.away⟩, (comes_pure _).2 ⟨trivial, ?_⟩⟩
  rw [back_home h.here h.layer]

/-- A connection is freed that has no session any more, and nothing below. -/
theorem freeEntry_bare (he : w.stack.find? id = some e) (hl : e.layer = some (.secure l)) (hs : l.session = none)
    (hi : e.inner = none) (ho : e.outer ≠ some id) :
    Comes (freeEntry b A (k + 1) id) w stop fun _ w' => Cleared id [] w.stack w'.stack := by
  have haway : ({ w.stack.away id with depth := w.stack.depth } : Slots H).find? id = some (bare e) := by
    show (w.stack.away id).find? id = _
    exact find?_away_self he
  have hdealloc : Comes (dealloc b A id) w stop fun _ w' =>
      w' = { w with stack := { w.stack.away id with depth := w.stack.depth } } := by
    unfold dealloc
    rw [comes_bind, comes_lookup, he, Option.bind_some, hl]
    dsimp only
    rw [comes_bind, comes_modifySlots, comes_bind]
    refine comes_run_map ?_
    show Comes ((((Secure.step b.engine id .dealloc).run l).run (answerLayer b A id)).run false) _ stop _
    simp only [Secure.step, comes_act_bind, comes_act_get, hs, Option.isSome_none]
    exact (comes_act_pure _).2 rfl
  have hends : Comes (freeEntry b A (k + 1) id) w stop fun _ _ => True := by
    unfold freeEntry
    rw [comes_bind]
    refine hdealloc.mono ?_
    rintro - w' rfl
    rw [comes_bind, comes_lookup, haway]
    have hi' : (bare e).inner = none := hi
    cases ho' : (bare e).outer with
    | none | some =>
      simp only [comes_bind, comes_modifySlots, hi', ho']
      exact (comes_note _).2 trivial
  exact (hends.and_ends (freeEntry_lone (k + 1) (.secure l l) he hl hi ho)).mono fun _ _ h => h.2

/-- A connection without a session is put back, and freed at once. -/
theorem put_back_freed {w₁ : World H} (he : s.find? id = some e) (hl : l.session = none) (hi : e.inner = none)
    (ho : e.outer ≠ some id) (hw₁ : w₁.stack = s.away id) :
    w₁.stack.isAlive id = true ∧
      Comes (freeEntry b A (k + 1) id) { w₁ with stack := w₁.stack.back id (.secure l) } stop fun _ w' =>
        Cleared id [] s w'.stack := by
  have hback : w₁.stack.back id (.secure l) = s.update id fun e => { e with layer := some (.secure l) } := by
    rw [hw₁, back_away]
  have hfound : (w₁.stack.back id (.secure l)).find? id = some { e with layer := some (.secure l) } := by
    rw [hback, find?_update_self, he]
    rfl
  refine ⟨?_, (freeEntry_bare (w := { w₁ with stack := w₁.stack.back id (.secure l) }) hfound rfl hl hi ho).mono ?_⟩
  · rw [hw₁]
    exact isAlive_away he
  · intro _ w' hw'
    have hw' : Cleared id [] (s.update id fun e => { e with layer := some (.secure l) }) w'.stack := hback ▸ hw'
    refine hw'.of_own (fun x hx => ?_) ?_ rfl rfl rfl
    · rw [find?_update, if_neg hx]
    · unfold outer?
      rw [find?_update_self, he]
      rfl

/-- **It can be closed**, and goes. -/
theorem Stranded.closed (h : Stranded w.stack id e l) :
    Comes (withLayer b A (freeEntry b A (k + 1)) id (.op .close)) w stop fun r w' =>
      r = .ok (.ok ()) ∧ Cleared id [] w.stack w'.stack := by
  refine comes_withLayer h.here h.layer (comes_run_map ?_)
  show Comes ((((Secure.close b.engine id).run l).run (answerLayer b A id)).run false) _ stop _
  unfold Secure.close Secure.sendCloseNotify
  simp only [comes_act_bind, comes_act_get, h.lapsed.phase, comes_act_pure]
  refine (comes_act_request _).2 ?_
  simp only [answerLayer, comes_run_bind, comes_run_lift, comes_lookup, comes_run_pure, h.away, Option.bind_some, bare,
    h.inner]
  simp only [comes_act_bind, comes_act_get, comes_act_pure]
  refine (comes_act_request _).2 ?_
  simp only [answerLayer, comes_run_lift, comes_note, comes_act_modify]
  refine (comes_act_request _).2 ?_
  exact (put_back_freed h.here rfl h.inner h.apart rfl).imp_right fun hfreed => hfreed.mono fun _ _ hw' => ⟨trivial, hw'⟩

/-- The last event of a connection is the same whether its layer is in place or not. -/
theorem enqueue_away (reason : Fault) :
    (s.away id).enqueue id (.error reason) = (s.enqueue id (.error reason)).away id := by
  have hfind : (s.away id).find? id = (s.find? id).map bare := by rw [find?_away, if_pos rfl]
  have hcomm : (s.away id).takeCallback id .err = (s.takeCallback id .err).away id := by
    show ({ (s.update id bare).takeCallback id .err with depth := s.depth + 1 } : Slots H) = _
    unfold away takeCallback
    rw [update_update, update_update]
    rfl
  unfold Slots.enqueue
  simp only [hfind]
  cases s.find? id with
  | none => rfl
  | some e =>
    cases ho : e.outer with
    | some o =>
      simp only [Option.map_some, bare, ho]
      rfl
    | none =>
      simp only [Option.map_some, bare, ho]
      rw [hcomm]
      rfl

/-- The last event of a connection leaves it where it is, for now. -/
theorem find?_enqueue_error (he : s.find? id = some e) (reason : Fault) :
    ∃ e', (s.enqueue id (.error reason)).find? id = some e' ∧ e'.inner = e.inner ∧ e'.outer = e.outer := by
  unfold Slots.enqueue
  simp only [he]
  cases ho : e.outer with
  | some o => exact ⟨e, he, rfl, ho⟩
  | none =>
    refine ⟨{ e with callbacks := e.callbacks.set .err none }, ?_, rfl, ho⟩
    show (s.takeCallback id .err).find? id = _
    unfold takeCallback
    rw [find?_update_self, he]
    rfl

/-- **When it hears the last of what was below, it goes** with it, and says so. -/
theorem Stranded.reported (h : Stranded w.stack id e l) (source : Handle) (reason : Fault) :
    Comes (deliver b A (freeEntry b A (k + 1)) ⟨source, .error reason, .layer id⟩) w stop fun _ w' =>
      Cleared id [] (w.stack.enqueue id (.error reason)) w'.stack := by
  suffices hlower : Comes (withLayer b A (freeEntry b A (k + 1)) id (.op (.lower (.error reason)))) w stop fun r w' =>
      Cleared id [] (w.stack.enqueue id (.error reason)) w'.stack from
    (comes_bind _ _).2 (hlower.mono fun _ _ hw' => hw')
  refine comes_withLayer h.here h.layer (comes_run_map ?_)
  show Comes ((((Secure.lower b.engine id (.error reason)).run l).run (answerLayer b A id)).run false) _ stop _
  unfold Secure.lower
  refine (comes_act_bind _ _).2 ((comes_act_request _).2 ?_)
  simp only [answerLayer, comes_run_lift, comes_note, comes_act_bind, comes_act_modify]
  refine (comes_act_request _).2 ?_
  simp only [answerLayer, comes_run_bind, comes_run_lift, enqueue, comes_modifySlots]
  obtain ⟨e', he', hi', ho'⟩ := find?_enqueue_error h.here reason
  exact put_back_freed he' rfl (hi'.trans h.inner) (fun hc => h.apart (ho'.symm.trans hc)) (enqueue_away reason)

/-! ## The last events of what was below -/

/-- The next close of the endpoint is refused. -/
def clinging : World parley := { meeting with net := (meeting.net.failCloses caller.tcp 1).1 }

end Stack

end Conduit
