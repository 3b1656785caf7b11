import Conduit.Proofs.Stack.Chains
import Conduit.Proofs.Stack.Lives

/-!
# Closing both halves of a connection

To shut down both halves of a connection is to close it: a plain layer and a TLS layer do the same for either. A layer
that hands everything on hands on the one as it does the other, but lets its own connection go only for the second.

* `Exec.Twin`: two runs side by side.
* `Stack.exec_both`: **both come to the same**, but for the connections that only hand on, which stay.
-/

namespace Conduit

variable {H : Host}

/-! ## Two runs -/

namespace Exec

variable {α β γ δ : Type} {w w' u v : World H} {post post' : α → World H → β → World H → Prop}

/-- Of two runs both end, as `post` says of their results and of the worlds they leave, or both halt, for one reason. -/
def Twin (x : Exec H α) (y : Exec H β) (w w' : World H) (post : α → World H → β → World H → Prop) : Prop :=
  match x w, y w' with
  | .ok a u, .ok c v => post a u c v
  | .error h _, .error h' _ => h = h'
  | _, _ => False

theorem Twin.mono {x : Exec H α} {y : Exec H β} (h : Twin x y w w' post)
    (hp : ∀ a u c v, post a u c v → post' a u c v) : Twin x y w w' post' := by
  unfold Twin at h ⊢
  split at h
  · exact hp _ _ _ _ h
  · exact h
  · cases h

/-- What holds of one of them however it ends may be used. -/
theorem Twin.and_left {x : Exec H α} {y : Exec H β} {p : α → World H → Prop} (h : Twin x y w w' post) (hx : Ends x w p) :
    Twin x y w w' fun a u c v => p a u ∧ post a u c v := by
  unfold Twin at h ⊢
  split at h
  · rename_i a u c v hxw hyw
    exact ⟨hx a u hxw, h⟩
  · exact h
  · cases h

/-- One run side by side with itself. -/
theorem twin_self (x : Exec H α) : Twin x x w w fun a u c v => c = a ∧ v = u := by
  unfold Twin
  cases x w with
  | ok a u => exact ⟨rfl, rfl⟩
  | error h u => rfl

theorem bind_ok {x : Exec H α} {a : α} (h : x w = .ok a u) (f : α → Exec H β) : (x >>= f) w = f a u := by
  show EStateM.bind x f w = _
  unfold EStateM.bind
  rw [h]

theorem bind_error {x : Exec H α} {e : Halt} (h : x w = .error e u) (f : α → Exec H β) : (x >>= f) w = .error e u := by
  show EStateM.bind x f w = _
  unfold EStateM.bind
  rw [h]

theorem Twin.bind {x : Exec H α} {y : Exec H β} {f : α → Exec H γ} {g : β → Exec H δ}
    {post : γ → World H → δ → World H → Prop} (h : Twin x y w w' fun a u c v => Twin (f a) (g c) u v post) :
    Twin (x >>= f) (y >>= g) w w' post := by
  unfold Twin at h
  split at h
  · rename_i a u c v hx hy
    unfold Twin
    rw [bind_ok hx, bind_ok hy]
    exact h
  · rename_i e u e' v hx hy
    unfold Twin
    rw [bind_error hx, bind_error hy]
    exact h
  · cases h

theorem twin_pure {a : α} {c : β} (h : post a w c w') : Twin (pure a : Exec H α) (pure c : Exec H β) w w' post := h

/-- What each of them comes to after its first steps. -/
theorem Twin.of_eq {x x' : Exec H α} {y y' : Exec H β} (hx : x w = x' u) (hy : y w' = y' v)
    (h : Twin x' y' u v post) : Twin x y w w' post := by
  unfold Twin at h ⊢
  rwa [hx, hy]

end Exec

namespace Stack

open Exec Slots

variable {b : Behaviour H} {w : World H} {A : Answers H} {free : Handle → Exec H Unit} {id i : Handle} {hs : List Handle}
  {e : Entry H} {name : String}

/-- A layer is told what is below it. -/
theorem answer_inner {flag : Bool} (hi : w.stack.inner? id = some i) :
    ((answerLayer b A id .inner).run flag) w = .ok (some i, flag) w := by
  rw [← hi]
  rfl

/-- A layer that hands everything on closes the connection below, and lets its own go if that succeeds. -/
theorem passthrough_close (hi : w.stack.inner? id = some i) :
    ((runMethod b A id (.op .close) (.passthrough name)).run false) w =
      (A (.ask i .close) >>= fun r => pure ((.passthrough name, r), match r with
        | .ok _ => true
        | .error _ => false)) w := by
  unfold runMethod Layer.forward
  simp only [Layer.Act.inner, Layer.Act.ask, Layer.Act.release, Layer.Act.request, StateT.run_bind, StateT.run_lift,
    Program.run_bind, Program.request, Program.run_ask, bind_assoc]
  rw [bind_ok (answer_inner hi)]
  simp only [Program.run_done, StateT.run_pure, pure_bind, Program.run_bind, StateT.run_bind, StateT.run_lift,
    Program.run_ask, Program.pure_eq, bind_assoc]
  rw [show answerLayer b A id (.ask i .close) = monadLift (A (.ask i .close)) from rfl, StateT.run_monadLift]
  simp only [bind_assoc, pure_bind]
  refine congrFun (bind_congr fun r => ?_) w
  cases r <;> rfl

/-- It shuts down both halves of the connection below, and keeps its own. -/
theorem passthrough_shutdown (hi : w.stack.inner? id = some i) :
    ((runMethod b A id (.op (.shutdown .both)) (.passthrough name)).run false) w =
      (A (.ask i (.shutdown .both)) >>= fun r => pure ((.passthrough name, r), false)) w := by
  unfold runMethod Layer.forward Layer.Act.below
  simp only [Layer.Act.inner, Layer.Act.ask, Layer.Act.request, StateT.run_bind, StateT.run_lift, Program.run_bind,
    Program.request, Program.run_ask, bind_assoc]
  rw [bind_ok (answer_inner hi)]
  simp only [Program.run_done, StateT.run_pure, pure_bind, Program.run_bind, StateT.run_bind, StateT.run_lift,
    Program.run_ask, Program.pure_eq, bind_assoc]
  rw [show answerLayer b A id (.ask i (.shutdown .both)) = monadLift (A (.ask i (.shutdown .both))) from rfl,
    StateT.run_monadLift]
  simp only [bind_assoc, pure_bind]
  rfl

end Stack

/-! ## What becomes of a chain -/

namespace Slots

variable {s s' : Slots H} {id : Handle} {hs : List Handle}

/-- Whether the layer of a connection does no more than hand on. -/
def handsOn (s : Slots H) (x : Handle) : Bool :=
  match (s.find? x).bind (·.layer) with
  | some (.passthrough _) => true
  | _ => false

/-- The connections of a chain, from its top, that do no more than hand on. -/
def leading (s : Slots H) (hs : List Handle) : List Handle := hs.takeWhile s.handsOn

theorem leading_congr (hf : ∀ x ∈ hs, s'.find? x = s.find? x) : s'.leading hs = s.leading hs := by
  unfold leading
  induction hs with
  | nil => rfl
  | cons x hs ih =>
    have hx : s'.handsOn x = s.handsOn x := by
      unfold handsOn
      rw [hf x List.mem_cons_self]
    rw [List.takeWhile_cons, List.takeWhile_cons, hx, ih fun y hy => hf y (List.mem_cons_of_mem _ hy)]

theorem leading_subset {x : Handle} (h : x ∈ s.leading hs) : x ∈ hs := List.takeWhile_subset _ h

end Slots

namespace Stack

open Exec Slots

variable {b : Behaviour H} {w u v : World H} {A : Answers H} {free : Handle → Exec H Unit} {id i : Handle}
  {hs : List Handle} {e : Entry H} {name : String} {layer : Layer H} {k : Nat}

/-- The worlds that are left when a chain, as it is in `s`, has been closed, `u`, and when both halves of it have been
shut down, `v`. They differ in the connections that hand on, `ps`, which are still there in `v`. -/
structure Halved (id : Handle) (hs ps : List Handle) (s : Slots H) (u v : World H) : Prop where
  net : v.net = u.net
  shared : v.shared = u.shared
  other : ∀ x ∉ ps, s.outer? id ≠ some x → v.stack.find? x = u.stack.find? x
  above : ∀ o ∉ id :: hs, s.outer? id = some o → u.stack.find? o = (v.stack.find? o).map (losing id)
  stays : ∀ x ∈ ps, v.stack.isAlive x = true
  queue : v.stack.queue = u.stack.queue
  depth : v.stack.depth = u.stack.depth
  pumping : v.stack.pumping = u.stack.pumping

theorem losing_losing (e : Entry H) : losing id (losing id e) = losing id e := by
  by_cases h : e.inner = some id <;> simp [losing, h]

/-- Where the two do the same, nothing differs. -/
theorem Halved.same {s : Slots H} (h : Cleared id hs s u.stack) : Halved id hs [] s u u := by
  refine ⟨rfl, rfl, fun _ _ _ => rfl, fun o hn ho => ?_, fun x hx => absurd hx List.not_mem_nil, rfl, rfl, rfl⟩
  rw [h.above o hn ho, Option.map_map]
  congr 1
  funext e
  exact (losing_losing e).symm

/-- What is left of a chain that was closed, and of one both halves of which were shut down. -/
def Both (id : Handle) (hs ps : List Handle) (s : Slots H) (r : Outcome) (u : World H) (r' : Outcome) (v : World H) :
    Prop :=
  r' = r ∧ match r with
  | .ok _ => Halved id hs ps s u v
  | .error _ => v = u

theorem getSlots_eq (w : World H) : getSlots w = .ok w.stack w := rfl

/-- A method has run in its connection's slot, and its layer is put back. -/
theorem withLayer_run {m : Method} {l : Layer H} {r : m.Reply} {flag : Bool} (he : w.stack.find? id = some e)
    (hl : e.layer = some layer)
    (hrun : ((runMethod b A id m layer).run false) { w with stack := w.stack.away id } = .ok ((l, r), flag) u)
    (ha : u.stack.isAlive id = true) :
    withLayer b A free id m w =
      (do
        if flag then free id
        pure (.ok r) : Exec H _) { u with stack := u.stack.back id l } := by
  unfold withLayer
  have hlookup : lookup id w = .ok (some e) w := by
    rw [← he]
    rfl
  rw [bind_ok hlookup]
  simp only [hl]
  refine (bind_ok (u := { w with stack := w.stack.away id }) rfl _).trans ((bind_ok hrun _).trans ?_)
  refine (bind_ok (u := { u with stack := { u.stack with depth := u.stack.depth - 1 } }) rfl _).trans ?_
  refine (bind_ok (getSlots_eq _) _).trans ?_
  have halive : ({ u.stack with depth := u.stack.depth - 1 } : Slots H).isAlive id = true := ha
  simp only [halive, if_true]
  refine (bind_ok (u := { u with stack := u.stack.back id l }) rfl _).trans ?_
  cases flag <;> rfl

/-- A connection that hands on and has nothing below it is freed, and neither the net nor what TLS engines share has a
part in it. -/
theorem freeEntry_passthrough (he : w.stack.find? id = some e) (hl : e.layer = some (.passthrough name))
    (hi : e.inner = none) : ∃ u, freeEntry b A (k + 1) id w = .ok () u ∧ u.net = w.net ∧ u.shared = w.shared := by
  have hlookup : lookup id w = .ok (some e) w := by
    rw [← he]
    rfl
  have haway : (w.stack.away id).find? id = some (bare e) := find?_away_self he
  -- the farewell
  have hdealloc : ∃ u, dealloc b A id w = .ok () u ∧ u.net = w.net ∧ u.shared = w.shared ∧
      u.stack.find? id = some (bare e) := by
    unfold dealloc
    rw [bind_ok hlookup]
    simp only [Option.bind_some, hl]
    exact ⟨_, rfl, rfl, rfl, haway⟩
  obtain ⟨u, hdealloc, hnet, hshared, hfind⟩ := hdealloc
  have hlookup' : lookup id u = .ok (some (bare e)) u := by
    rw [← hfind]
    rfl
  unfold freeEntry
  rw [bind_ok hdealloc, bind_ok hlookup']
  simp only [bare, hi]
  cases e.outer with
  | none => exact ⟨_, rfl, hnet, hshared⟩
  | some o => exact ⟨_, rfl, hnet, hshared⟩

theorem pump_held (h : (0 < w.stack.depth || w.stack.pumping) = true) : pump b A free k w = .ok () w := by
  unfold pump
  rw [bind_ok (getSlots_eq w), if_pos h]
  rfl

/-- To work off an empty queue takes one step. -/
theorem pump_idle (h : (0 < w.stack.depth || w.stack.pumping) = false) (hq : w.stack.queue = []) :
    pump b A free k w =
      if k = 0 then .error .outOfFuel { w with stack := { w.stack with pumping := true } } else .ok () w := by
  have hp : w.stack.pumping = false := (Bool.or_eq_false_iff.1 h).2
  unfold pump
  rw [bind_ok (getSlots_eq w), if_neg (by rw [h]; exact Bool.false_ne_true)]
  refine (bind_ok (u := { w with stack := { w.stack with pumping := true } }) rfl _).trans ?_
  cases k with
  | zero => exact bind_error rfl _
  | succ k =>
    rw [if_neg (Nat.succ_ne_zero k)]
    obtain ⟨⟨slots, free, queue, depth, pumping, live⟩, net, shared, memory⟩ := w
    cases hq
    cases hp
    rfl

/-- Where no event is to be delivered, none is, on one side as on the other. -/
theorem twin_pump (hq : w.stack.Quiet) (hdepth : v.stack.depth = w.stack.depth) (hpumping : v.stack.pumping = w.stack.pumping)
    (hqueue : v.stack.queue = w.stack.queue) :
    Twin (pump b A free k) (pump b A free k) w v fun _ w' _ v' => w' = w ∧ v' = v := by
  unfold Twin
  cases hbusy : (0 < w.stack.depth || w.stack.pumping) with
  | true =>
    rw [pump_held hbusy, pump_held (by rw [hdepth, hpumping]; exact hbusy)]
    exact ⟨rfl, rfl⟩
  | false =>
    have hempty : w.stack.queue = [] := by
      rw [Bool.or_eq_false_iff, decide_eq_false_iff_not] at hbusy
      rcases hq with hd | hp | hempty
      · exact absurd hd hbusy.1
      · rw [hbusy.2] at hp
        cases hp
      · exact hempty
    rw [pump_idle hbusy hempty, pump_idle (by rw [hdepth, hpumping]; exact hbusy) (hqueue.trans hempty)]
    by_cases hk : k = 0
    · rw [if_pos hk, if_pos hk]
    · rw [if_neg hk, if_neg hk]
      exact ⟨rfl, rfl⟩

/-! ## Both operations -/

/-- A plain layer and a TLS layer close the connection when both of its halves are to be shut down. -/
theorem withLayer_both (hc : w.stack.Chain (id :: hs)) (hown : w.stack.handsOn id = false) :
    withLayer b A free id (.op (.shutdown .both)) w = withLayer b A free id (.op .close) w := by
  cases hc with
  | ground he hl hi =>
    have hlookup : lookup id w = .ok (some _) w := congrArg (EStateM.Result.ok · w) he
    unfold withLayer
    rw [bind_ok hlookup, bind_ok hlookup]
    simp only [hl]
    rfl
  | secure he hl hi hc =>
    have hlookup : lookup id w = .ok (some _) w := congrArg (EStateM.Result.ok · w) he
    unfold withLayer
    rw [bind_ok hlookup, bind_ok hlookup]
    simp only [hl]
    rfl
  | passthrough he hl hi hc => simp [handsOn, he, hl] at hown

/-- **On a plain or a TLS connection the two are one.** -/
theorem exec_both_own (hc : w.stack.Chain (id :: hs)) (hown : w.stack.handsOn id = false) :
    exec b k (.ask id (.shutdown .both)) w = exec b k (.ask id .close) w := by
  cases k with
  | zero => rfl
  | succ k =>
    have hlayer : withLayer b (exec b k) (freeEntry b (exec b k) k) id (.op (.shutdown .both)) w =
        withLayer b (exec b k) (freeEntry b (exec b k) k) id (.op .close) w := withLayer_both hc hown
    show call b (exec b k) _ k id (.shutdown .both) w = call b (exec b k) _ k id .close w
    unfold call
    cases hr : withLayer b (exec b k) (freeEntry b (exec b k) k) id (.op .close) w with
    | ok r u =>
      rw [bind_ok hr, bind_ok (hlayer.trans hr)]
      cases r <;> rfl
    | error h u => rw [bind_error hr, bind_error (hlayer.trans hr)]

/-- A method of a connection's layer, and then what else an operation takes. -/
theorem call_run {o : Op} {l : Layer H} {r : o.Reply} {flag : Bool} (he : w.stack.find? id = some e)
    (hl : e.layer = some layer)
    (hrun : ((runMethod b A id (.op o) layer).run false) { w with stack := w.stack.away id } = .ok ((l, r), flag) u)
    (ha : u.stack.isAlive id = true) :
    call b A free k id o w =
      (do
        if flag then free id
        pump b A free k
        pure r : Exec H _) { u with stack := u.stack.back id l } := by
  unfold call
  have hlayer : withLayer b A free id (.op o) w = _ := withLayer_run he hl hrun ha
  cases flag with
  | false =>
    rw [bind_ok (hlayer.trans rfl)]
    rfl
  | true =>
    cases hf : free id { u with stack := u.stack.back id l } with
    | ok _ u' =>
      have hdone : withLayer b A free id (.op o) w = .ok (.ok r) u' := hlayer.trans (bind_ok hf _)
      rw [bind_ok hdone]
      show _ = (free id >>= fun _ => pump b A free k >>= fun _ => pure r) _
      rw [bind_ok hf]
    | error h u' =>
      have hdone : withLayer b A free id (.op o) w = .error h u' := hlayer.trans (bind_error hf _)
      rw [bind_error hdone]
      show _ = (free id >>= fun _ => pump b A free k >>= fun _ => pure r) _
      rw [bind_error hf]

/-- A method that halts halts the operation. -/
theorem call_halt {o : Op} {h : Halt} (he : w.stack.find? id = some e) (hl : e.layer = some layer)
    (hrun : ((runMethod b A id (.op o) layer).run false) { w with stack := w.stack.away id } = .error h u) :
    call b A free k id o w = .error h u := by
  have hlookup : lookup id w = .ok (some e) w := congrArg (EStateM.Result.ok · w) he
  unfold call
  refine bind_error ?_ _
  unfold withLayer
  rw [bind_ok hlookup]
  simp only [hl]
  exact (bind_ok (u := { w with stack := w.stack.away id }) rfl _).trans (bind_error hrun _)

/-- What becomes of a connection that hands on, over a chain that was closed, or both halves of which were shut down. -/
theorem Halved.step {s : Slots H} {ps : List Handle} {l : Layer H} {z : World H} (h : Halved i hs ps (s.away id) u v)
    (hclosed : Cleared i hs (s.away id) u.stack) (hall : Cleared id (i :: hs) s z.stack) (he : s.find? id = some e)
    (hn : id ∉ i :: hs) (ho : s.outer? i = some id) (hps : ∀ x ∈ ps, x ∈ i :: hs) (hnet : z.net = u.net)
    (hshared : z.shared = u.shared) :
    Halved id (i :: hs) (id :: ps) s z { v with stack := v.stack.back id l } := by
  have hout : (s.away id).outer? i = some id := (outer?_away i).trans ho
  -- others than those of the chain are where they were
  have hother : ∀ x ∉ id :: i :: hs, v.stack.find? x = s.find? x := by
    intro x hx
    rw [List.mem_cons, not_or] at hx
    have hne : (s.away id).outer? i ≠ some x := fun hc => hx.1 (Option.some.inj (hc.symm.trans hout))
    rw [h.other x (fun hc => hx.2 (hps x hc)) hne, hclosed.rest x hx.2 hne, find?_away, if_neg hx.1]
  refine ⟨h.net.trans hnet.symm, h.shared.trans hshared.symm, fun x hx hx' => ?_, fun o ho₁ ho₂ => ?_, fun x hx => ?_,
    ?_, ?_, ?_⟩
  · rw [List.mem_cons, not_or] at hx
    rw [find?_back, if_neg hx.1]
    by_cases hmem : x ∈ i :: hs
    · have hne : (s.away id).outer? i ≠ some x := fun hc => hx.1 (Option.some.inj (hc.symm.trans hout))
      rw [hall.gone x (List.mem_cons_of_mem _ hmem), h.other x hx.2 hne, hclosed.gone x hmem]
    · have hnot : x ∉ id :: i :: hs := by simp only [List.mem_cons, not_or] at hmem ⊢; exact ⟨hx.1, hmem⟩
      rw [hall.rest x hnot hx', hother x hnot]
  · have hne : o ≠ id := fun hc => ho₁ (hc ▸ List.mem_cons_self)
    rw [hall.above o ho₁ ho₂, find?_back, if_neg hne, hother o ho₁]
  · rw [isAlive_iff, find?_back]
    rcases List.mem_cons.1 hx with rfl | hmem
    · -- what stands on the chain has lost it on one side, and is there on the other
      have hu : u.stack.find? x = some (losing i (bare e)) := by
        rw [hclosed.above x hn hout, find?_away_self he]
        rfl
      rw [h.above x hn hout] at hu
      obtain ⟨e', he', -⟩ := Option.map_eq_some_iff.1 hu
      exact ⟨_, by rw [if_pos rfl, he']; rfl⟩
    · have hne : x ≠ id := fun hc => hn (hc ▸ hps x hmem)
      rw [if_neg hne]
      exact isAlive_iff.1 (h.stays x hmem)
  · exact h.queue.trans (hclosed.queue.trans hall.queue.symm)
  · show v.stack.depth - 1 = z.stack.depth
    rw [h.depth, hclosed.depth, hall.depth]
    rfl
  · exact h.pumping.trans (hclosed.pumping.trans hall.pumping.symm)

/-- A connection that hands on, over a chain for which the two come to the same. -/
theorem twin_handsOn {ps : List Handle} (he : w.stack.find? id = some e) (hl : e.layer = some (.passthrough name))
    (hi : e.inner = some i) (hn : id ∉ i :: hs) (ho : w.stack.outer? i = some id) (hself : w.stack.outer? id ≠ some id)
    (hq : w.stack.Quiet) (hps : ∀ x ∈ ps, x ∈ i :: hs)
    (hk : ∀ r u, A (.ask i .close) { w with stack := w.stack.away id } = .ok r u → k ≠ 0)
    (h : Twin (A (.ask i .close)) (A (.ask i (.shutdown .both))) { w with stack := w.stack.away id }
      { w with stack := w.stack.away id } fun r u r' v =>
        Closes i hs (w.stack.away id) r u.stack ∧ Both i hs ps (w.stack.away id) r u r' v) :
    Twin (call b A (freeEntry b A k) k id .close) (call b A (freeEntry b A k) k id (.shutdown .both)) w w
      fun r u r' v => Both id (i :: hs) (id :: ps) w.stack r u r' v := by
  have haway : (w.stack.away id).find? id = some (bare e) := find?_away_self he
  have hinner : (w.stack.away id).inner? id = some i := inner?_eq_some.2 ⟨_, haway, hi⟩
  have hout : (w.stack.away id).outer? i = some id := (outer?_away i).trans ho
  have hclosing : ((runMethod b A id (.op .close) (.passthrough name)).run false) { w with stack := w.stack.away id } = _ :=
    passthrough_close hinner
  have hshutting : ((runMethod b A id (.op (.shutdown .both)) (.passthrough name)).run false)
      { w with stack := w.stack.away id } = _ := passthrough_shutdown hinner
  unfold Twin at h
  cases h₁ : A (.ask i .close) { w with stack := w.stack.away id } with
  | error f u =>
    cases h₂ : A (.ask i (.shutdown .both)) { w with stack := w.stack.away id } with
    | error f' v =>
      rw [h₁, h₂] at h
      unfold Twin
      rw [call_halt he hl (hclosing.trans (bind_error h₁ _)), call_halt he hl (hshutting.trans (bind_error h₂ _))]
      exact h
    | ok r' v =>
      rw [h₁, h₂] at h
      cases h
  | ok r u =>
    cases h₂ : A (.ask i (.shutdown .both)) { w with stack := w.stack.away id } with
    | error f' v =>
      rw [h₁, h₂] at h
      cases h
    | ok r' v =>
      rw [h₁, h₂] at h
      obtain ⟨hends, hr, hboth⟩ := h
      cases r with
      | error f =>
        -- the connection below has refused, and nothing has changed
        cases hr
        obtain rfl : v = u := hboth
        have halive : v.stack.isAlive id = true := isAlive_iff.2 ⟨_, (Refitted.rest hends id hn).trans haway⟩
        have hrefit := Refitted.refit (l := .passthrough name) he hn hends fun hc => hc.refit he hl (.passthrough _ _)
          (find?_refit he hn hends).2 fun hc' => (hends.chain (hc'.away hn)).back hn
        refine Twin.of_eq (call_run he hl (hclosing.trans (bind_ok h₁ _)) halive)
          (call_run he hl (hshutting.trans (bind_ok h₂ _)) halive) ?_
        refine Twin.bind ((twin_pump (hrefit.quiet hq) rfl rfl rfl).mono ?_)
        rintro _ u _ v ⟨rfl, rfl⟩
        exact twin_pure ⟨rfl, rfl⟩
      | ok _ =>
        cases hr
        obtain ⟨k, rfl⟩ := Nat.exists_eq_succ_of_ne_zero (hk _ _ h₁)
        -- on one side the connection has lost the one below, and is freed
        have hstripped : Stripped id (i :: hs) (w.stack.away id) u.stack :=
          Cleared.stripped hends (.refl _ _) haway hi hn hout
        obtain ⟨e', he', hi', ho'⟩ := hstripped.own
        have hback : (u.stack.back id (.passthrough name)).find? id = some { e' with layer := some (.passthrough name) } := by
          rw [find?_back, if_pos rfl, he']
          rfl
        have hup : e'.outer ≠ some id := by
          rw [← ho', outer?_away id]
          exact hself
        obtain ⟨z, hfree, hnet, hshared⟩ := freeEntry_passthrough (b := b) (A := A) (k := k)
          (w := { u with stack := u.stack.back id (.passthrough name) }) hback rfl hi'
        have hcleared : Cleared id (i :: hs) w.stack z.stack := hstripped.cleared hn hself
          (freeEntry_lone (w := { u with stack := u.stack.back id (.passthrough name) }) (k + 1) (.passthrough _ _) hback
            rfl hi' hup () z hfree)
        -- on the other it stays
        have hv : v.stack.find? id ≠ none := by
          intro hnone
          have hu := hboth.above id hn hout
          rw [hnone, he'] at hu
          cases hu
        obtain ⟨e'', he''⟩ := Option.ne_none_iff_exists'.1 hv
        have hhalved : Halved id (i :: hs) (id :: ps) w.stack z
            { v with stack := v.stack.back id (.passthrough name) } :=
          Halved.step hboth hends hcleared he hn ho hps hnet hshared
        refine Twin.of_eq ((call_run he hl (hclosing.trans (bind_ok h₁ _)) (isAlive_iff.2 ⟨e', he'⟩)).trans
          (bind_ok hfree _)) (call_run he hl (hshutting.trans (bind_ok h₂ _)) (isAlive_iff.2 ⟨e'', he''⟩)) ?_
        have hquiet : z.stack.Quiet := Closes.quiet (r := .ok ()) hcleared hq
        refine Twin.bind ((twin_pump hquiet hhalved.depth hhalved.pumping hhalved.queue).mono ?_)
        rintro _ u _ v ⟨rfl, rfl⟩
        exact twin_pure ⟨rfl, hhalved⟩

/-- **To shut down both halves of a chain comes to the same as to close it**, but for the connections at its top that do
no more than hand on. -/
theorem exec_both (k : Nat) (hc : w.stack.Chain (id :: hs)) (hu : w.stack.Upright (id :: hs)) (hq : w.stack.Quiet) :
    Twin (exec b k (.ask id .close)) (exec b k (.ask id (.shutdown .both))) w w fun r u r' v =>
      Both id hs (w.stack.leading (id :: hs)) w.stack r u r' v := by
  -- what is below the first connection is asked with one step less
  induction k generalizing w id hs with
  | zero => exact rfl
  | succ k ih =>
    cases hown : w.stack.handsOn id with
    | false =>
      have hnone : w.stack.leading (id :: hs) = [] := by
        unfold leading
        rw [List.takeWhile_cons, hown]
        rfl
      refine Twin.of_eq rfl (exec_both_own hc hown) (((twin_self _).and_left (exec_close (k + 1) hc hu hq)).mono ?_)
      rintro r u r' v ⟨hends, rfl, rfl⟩
      refine ⟨rfl, ?_⟩
      rw [hnone]
      cases r' with
      | ok _ => exact .same hends
      | error f => rfl
    | true =>
      cases hc with
      | ground he hl hi => simp [handsOn, he, hl] at hown
      | secure he hl hi hc => simp [handsOn, he, hl] at hown
      | @passthrough _ i hs e name he hl hi hc =>
        have hn := hu.not_mem
        have ho := hu.outer_next he hi
        have hlead : w.stack.leading (id :: i :: hs) = id :: (w.stack.away id).leading (i :: hs) := by
          unfold leading
          rw [List.takeWhile_cons, hown]
          refine congrArg (id :: ·) (leading_congr fun x hx => ?_).symm
          have hne : x ≠ id := fun hc => hn (hc ▸ hx)
          rw [find?_away, if_neg hne]
        have hquiet : (w.stack.away id).Quiet := .inl (Nat.succ_pos _)
        rw [hlead]
        refine twin_handsOn he hl hi hn ho (hu.apart id List.mem_cons_self) hq (fun x => leading_subset) ?_
          ((ih (w := { w with stack := w.stack.away id }) (hc.away hn) hu.tail.away hquiet).and_left
            (exec_close k (hc.away hn) hu.tail.away hquiet))
        rintro r u hr rfl
        cases hr

/-- How closing a chain `hs`, which leaves `r` and `u`, compares with shutting down both halves of it, which leaves `r'`
and `v`. The connections `ps` at the top of the chain do no more than hand on. -/
structure Compared (hs ps : List Handle) (r : Outcome) (u : World H) (r' : Outcome) (v : World H) : Prop where
  /-- The answer is the same. -/
  reply : r' = r
  /-- A chain that is closed is gone, -/
  closed : r = .ok () → ∀ x ∈ hs, u.stack.isAlive x = false
  /-- and one that refuses is there, whatever was asked. -/
  refused : r ≠ .ok () → (∀ x ∈ hs, u.stack.isAlive x = true) ∧ v = u
  /-- Where no connection hands on, all is the same. -/
  same : ps = [] → v = u
  net : v.net = u.net
  shared : v.shared = u.shared
  /-- Where some do, so is all but these, -/
  other : ∀ x ∉ ps, v.stack.find? x = u.stack.find? x
  /-- and these stay when both halves are shut down. -/
  stays : ∀ x ∈ ps, v.stack.isAlive x = true

/-- **To shut down both halves of a connection is to close it**, at any time at which an application may ask: the answer
is the same, and so is the state of the stack and of its engines, but for the connections that do no more than hand on,
as far as they stand above all others. Those stay. -/
theorem exec_shutdown_both (k : Nat) (hidle : w.stack.Idle) (hc : w.stack.Chain (id :: hs))
    (htop : w.stack.outer? id = none) :
    Twin (exec b k (.ask id .close)) (exec b k (.ask id (.shutdown .both))) w w
      (Compared (id :: hs) (w.stack.leading (id :: hs))) := by
  have hu := hc.upright hidle.sound.toLinked
  have hclose := exec_close (b := b) k hc hu hidle.quiet
  -- a chain that has refused is there
  have halive : ∀ {s : Slots H}, Refitted (id :: hs) w.stack s → ∀ x ∈ id :: hs, s.isAlive x = true :=
    fun h => (h.chain hc).isAlive
  cases hown : w.stack.handsOn id with
  | false =>
    have hnone : w.stack.leading (id :: hs) = [] := by
      unfold leading
      rw [List.takeWhile_cons, hown]
      rfl
    rw [hnone]
    refine Twin.of_eq rfl (exec_both_own hc hown) (((twin_self _).and_left hclose).mono ?_)
    rintro r u r' v ⟨hends, rfl, rfl⟩
    refine ⟨rfl, ?_, ?_, fun _ => rfl, rfl, rfl, fun _ _ => rfl, by simp⟩
    · rintro rfl x hx
      exact isAlive_eq_false.2 (hends.gone x hx)
    · intro hr
      cases r' with
      | ok _ => exact absurd rfl hr
      | error f => exact ⟨halive hends, rfl⟩
  | true =>
    have hsome : w.stack.leading (id :: hs) ≠ [] := by
      unfold leading
      rw [List.takeWhile_cons, hown]
      exact List.cons_ne_nil _ _
    refine ((exec_both k hc hu hidle.quiet).and_left hclose).mono ?_
    rintro r u r' v ⟨hends, rfl, hboth⟩
    cases r' with
    | ok _ =>
      refine ⟨rfl, fun _ x hx => isAlive_eq_false.2 (hends.gone x hx), fun hr => absurd rfl hr,
        fun hps => absurd hps hsome, hboth.net, hboth.shared, fun x hx => hboth.other x hx ?_, hboth.stays⟩
      rw [htop]
      exact fun hc => (nomatch hc)
    | error f =>
      obtain rfl : v = u := hboth
      exact ⟨rfl, fun hr => (nomatch hr), fun _ => ⟨halive hends, rfl⟩, fun _ => rfl, rfl, rfl, fun _ _ => rfl,
        fun x hx => halive hends x (leading_subset hx)⟩

/-! A connection over an endpoint, and one above it that does no more than hand on. -/

/-- The lower one is opened, and the upper one put above it. -/
def stackUp : Act meddler (Except Fault Handle) :=
  .ask .newPcb fun i =>
  .ask (.openPcb (.loopback i)) fun lower =>
  .ask (.wrap lower (.passthrough "upper")) .done

/-- Whether the upper connection hands on to the lower, which is over an endpoint, and nothing is above. -/
def isStacked (s : Slots meddler) : Bool :=
  match s.find? ⟨1, 0⟩, s.find? ⟨0, 0⟩ with
  | some { layer := some (.passthrough _), inner := some ⟨0, 0⟩, outer := none, .. },
    some { layer := some (.plain _), inner := none, .. } => true
  | _, _ => false

theorem isStacked_chain {s : Slots meddler} (h : isStacked s = true) :
    s.Chain [⟨1, 0⟩, ⟨0, 0⟩] ∧ s.outer? ⟨1, 0⟩ = none := by
  unfold isStacked at h
  split at h
  · rename_i h₁ h₀
    refine ⟨.passthrough h₁ rfl rfl (.ground h₀ rfl rfl), ?_⟩
    unfold outer?
    rw [h₁]
    rfl
  · cases h

theorem exec_shutdown_both_stacked : ∃ w : World meddler, w.stack.Idle ∧ w.stack.Chain [⟨1, 0⟩, ⟨0, 0⟩] ∧
    w.stack.outer? ⟨1, 0⟩ = none ∧
    Twin (exec meddling 20 (.ask ⟨1, 0⟩ .close)) (exec meddling 20 (.ask ⟨1, 0⟩ (.shutdown .both))) w w
      (Compared [⟨1, 0⟩, ⟨0, 0⟩] (w.stack.leading [⟨1, 0⟩, ⟨0, 0⟩])) := by
  have hreaches : Exec.reaches (Stack.run meddling 20 stackUp) { shared := (), memory := () }
      (fun _ w => isStacked w.stack) = true := by decide +kernel
  obtain ⟨_, w, hrun, hstacked⟩ := Exec.exists_of_reaches hreaches
  obtain ⟨hchain, htop⟩ := isStacked_chain hstacked
  obtain ⟨t, ht⟩ := Recorded.exists_record (Recorded.forget_run 20 stackUp) hrun
  have hidle : w.stack.Idle := (Recorded.run_ends 20 stackUp (by exact idle_empty) _ w ht).idle
  exact ⟨w, hidle, hchain, htop, exec_shutdown_both 20 hidle hchain htop⟩

/-- **Above a plain connection, one that hands on outlives the shutdown of both its halves**, but not a close. -/
theorem shutdown_both_stays : ∃ w u v : World meddler,
    Stack.run meddling 20 stackUp { shared := (), memory := () } = .ok (.ok ⟨1, 0⟩) w ∧
    exec meddling 20 (.ask ⟨1, 0⟩ .close) w = .ok (.ok ()) u ∧ u.stack.isAlive ⟨1, 0⟩ = false ∧
    exec meddling 20 (.ask ⟨1, 0⟩ (.shutdown .both)) w = .ok (.ok ()) v ∧ v.stack.isAlive ⟨1, 0⟩ = true := by
  have hreaches : Exec.reaches (Stack.run meddling 20 stackUp) { shared := (), memory := () } (fun r w =>
      r = .ok ⟨1, 0⟩ &&
      Exec.reaches (exec meddling 20 (.ask ⟨1, 0⟩ .close)) w (fun r u => r = .ok () && !u.stack.isAlive ⟨1, 0⟩) &&
      Exec.reaches (exec meddling 20 (.ask ⟨1, 0⟩ (.shutdown .both))) w
        (fun r v => r = .ok () && v.stack.isAlive ⟨1, 0⟩)) = true := by decide +kernel
  obtain ⟨r, w, hrun, hends⟩ := Exec.exists_of_reaches hreaches
  simp only [Bool.and_eq_true, decide_eq_true_eq] at hends
  obtain ⟨⟨rfl, hclose⟩, hboth⟩ := hends
  obtain ⟨r, u, hu, hdead⟩ := Exec.exists_of_reaches hclose
  obtain ⟨r', v, hv, halive⟩ := Exec.exists_of_reaches hboth
  simp only [Bool.and_eq_true, decide_eq_true_eq, Bool.not_eq_true'] at hdead halive
  obtain ⟨rfl, hdead⟩ := hdead
  obtain ⟨rfl, halive⟩ := halive
  exact ⟨w, u, v, hrun, hu, hdead, hv, halive⟩

end Stack

end Conduit
