import Conduit.Proofs.Loopback.Edits
import Conduit.Proofs.Stack.Forgotten
import Conduit.Proofs.Stack.Orderly
import Conduit.Proofs.Stack.Partings
import Conduit.Proofs.Stack.Rearmed
import Conduit.Proofs.Stack.Rests

/-!
# Connections that are given up

Whoever has a connection on his hands that nobody wants aborts it. It goes then, with all that it stands on, and the
endpoint at the bottom is closed.

* `Slots.Holds`: a connection over an endpoint of the loopback net.
* `Stack.GivenUp`: connections that have gone, and their endpoints are closed.
* `Stack.operate_abort`: what is left of a chain that is aborted, before anybody is told.
* `Stack.abort_gives_up`: **a chain that is aborted is given up**, if nobody is told at once.
* `Stack.abort_buries`: **a connection that is aborted is gone**, whatever it stands on.
-/

namespace Conduit

open Exec

variable {H : Host} {b : Behaviour H}

/-- An endpoint that is aborted is closed. -/
theorem Loopback.Net.state_abort (n : Loopback.Net) (i : Nat) : ((n.abort i).pcb i).state = .closed := by
  obtain ⟨ls, hr⟩ := (n.resetPeer i).release_eq i
  unfold abort
  rw [hr]
  generalize ({ n.resetPeer i with listeners := ls } : Loopback.Net) = m
  rcases Nat.lt_or_ge i m.pcbs.size with hlt | hge
  · rw [pcb_update_self hlt]
    rfl
  · -- an endpoint that is not there counts as closed
    rw [pcb_of_size_le (by simpa using hge)]

namespace Slots

variable {s : Slots H} {id x : Handle} {e : Entry H} {i : Nat}

/-- A connection over an endpoint of the loopback net. -/
def Holds (s : Slots H) (x : Handle) (i : Nat) : Prop :=
  ∃ e l, s.find? x = some e ∧ e.layer = some (.plain l) ∧ l.pcb = some (.loopback i)

/-- Where the last event of a connection goes. -/
def lastRoute (e : Entry H) : Route H.Code :=
  match e.outer with
  | some outer => .layer outer
  | none => .sink e.callbacks.err

/-- The last event of a connection waits, and the connection is still there. -/
theorem enqueue_last (he : s.find? id = some e) (reason : Fault) :
    (∃ e', (s.enqueue id (.error reason)).find? id = some e' ∧ e'.layer = e.layer ∧ e'.inner = e.inner ∧
      e'.outer = e.outer) ∧
    (∀ x, x ≠ id → (s.enqueue id (.error reason)).find? x = s.find? x) ∧
    (s.enqueue id (.error reason)).queue = s.queue ++ [⟨id, .error reason, lastRoute e⟩] := by
  unfold lastRoute
  cases ho : e.outer with
  | some outer =>
    rw [enqueue_passed he ho]
    exact ⟨⟨e, he, rfl, rfl, ho⟩, fun _ _ => rfl, rfl⟩
  | none =>
    rw [enqueue_final he ho]
    refine ⟨⟨{ e with callbacks := e.callbacks.set .err none }, ?_, rfl, rfl, ho⟩, fun x hx => ?_, rfl⟩
    · show (s.takeCallback id .err).find? id = _
      unfold takeCallback
      rw [find?_update_self, he]
      rfl
    · exact find?_update_of_ne hx

end Slots

namespace Stack

open Slots

variable {w w' : World H} {A : Answers H} {free : Handle → Exec H Unit} {id i : Handle} {hs : List Handle} {e : Entry H}
  {layer : Layer H} {k : Nat}

/-- Connections that have gone since `w`, and the endpoints that they were over are closed. -/
def GivenUp (hs : List Handle) (w w' : World H) : Prop :=
  ∀ x ∈ hs, w'.stack.find? x = none ∧ ∀ i, w.stack.Holds x i → (w'.net.pcb i).state = .closed

/-! ## The layer of a connection that is aborted -/

/-- A layer that has no endpoint any more. -/
def Mute (layer : Layer H) : Prop := ∀ l, layer = .plain l → l.pcb = none

/-- The farewell of a layer without an endpoint is heard nowhere. -/
theorem mute_dealloc (hk : OfAKind layer layer) (hm : Mute layer) :
    Ends ((runMethod b A id .dealloc layer).run false) w fun _ w' => w'.net = w.net ∧ w'.stack = w.stack := by
  cases hk with
  | plain l =>
    refine ends_run_map ?_
    show Ends ((((Plain.dealloc id).run l).run (answerLayer b A id)).run false) w _
    unfold Plain.dealloc
    simp only [ends_act_bind, ends_act_get, hm l rfl]
    exact (ends_act_pure _).2 ⟨rfl, rfl⟩
  | secure l =>
    refine ends_run_map ?_
    show Ends ((((Secure.step b.engine id .dealloc).run l).run (answerLayer b A id)).run false) w _
    simp only [Secure.step, ends_act_bind, ends_act_get]
    split
    · simp only [ends_act_bind, ends_act_modify]
      refine (ends_act_request _).2 ?_
      simp only [answerLayer, ends_run_lift, ends_note, and_self]
    · exact (ends_act_pure _).2 ⟨rfl, rfl⟩
  | passthrough name => exact ends_run_map ((ends_act_pure _).2 ⟨rfl, rfl⟩)

/-- A connection is freed that stands on nothing and has no endpoint: no other endpoint learns of it. -/
theorem freeEntry_mute (hk : OfAKind layer layer) (hm : Mute layer) (he : w.stack.find? id = some e)
    (hl : e.layer = some layer) (hi : e.inner = none) : Ends (freeEntry b A k id) w fun _ w' => w'.net = w.net := by
  cases k with
  | zero => exact ends_throw _
  | succ k =>
    unfold freeEntry dealloc
    simp only [ends_bind, ends_lookup, he, Option.bind_some, hl, ends_modifySlots]
    refine (mute_dealloc (w := { w with stack := w.stack.away id }) hk hm).mono ?_
    rintro _ w₁ ⟨hnet, hstack⟩
    have hfound : ({ w₁.stack with depth := w₁.stack.depth - 1 } : Slots H).find? id = some (bare e) := by
      show w₁.stack.find? id = _
      rw [hstack]
      exact find?_away_self he
    have hbelow : (bare e).inner = none := hi
    simp only [hfound, hbelow]
    cases (bare e).outer with
    | none | some =>
      simp only [ends_bind, ends_modifySlots, ends_note]
      exact hnet

/-- What the layer of a connection leaves that is aborted: it has no endpoint, those of the connections below are closed,
as its own is, and nothing is below it any more. -/
structure Quelled (id : Handle) (hs : List Handle) (w : World H) (layer : Layer H) (r : (Layer H × Unit) × Bool)
    (w' : World H) : Prop where
  mute : Mute r.1.1
  own : ∀ l i, layer = .plain l → l.pcb = some (.loopback i) → (w'.net.pcb i).state = .closed
  below : ∀ x ∈ hs, ∀ i, w.stack.Holds x i → (w'.net.pcb i).state = .closed
  bereft : w'.stack.find? id = (w.stack.find? id).map fun e => { e with inner := none }

/-- A plain layer aborts its endpoint. -/
theorem plain_quelled (l : Plain H.Pcb) (he : w.stack.find? id = some e) (hi : e.inner = none) :
    Ends ((runMethod b A id (.op .abort) (.plain l)).run false) w (Quelled id [] w (.plain l)) := by
  have hmute : ∀ rx, Mute (Layer.plain { l with pcb := none, rx := rx } : Layer H) := by
    rintro rx l' hl'
    cases hl'
    rfl
  have hnone : ∀ {w' : World H}, ∀ x ∈ ([] : List Handle), ∀ i, w.stack.Holds x i → (w'.net.pcb i).state = .closed :=
    fun x hx => absurd hx List.not_mem_nil
  have hfound : ∀ {w' : World H}, w'.stack = w.stack →
      w'.stack.find? id = (w.stack.find? id).map fun e => { e with inner := none } := by
    intro w' hw
    rw [hw, he, Option.map_some, ← hi]
  refine ends_run_map ?_
  show Ends ((((Plain.abort id).run l).run (answerLayer b A id)).run false) w _
  unfold Plain.abort
  simp only [ends_act_bind, ends_act_get]
  cases hp : l.pcb with
  | none =>
    simp only [ends_act_modify]
    refine ⟨?_, ?_, hnone, hfound rfl⟩
    · rintro l' hl'
      cases hl'
      exact hp
    · rintro l' i hl' hi
      cases hl'
      cases hp.symm.trans hi
  | some p =>
    simp only [ends_act_bind, ends_act_modify]
    cases p with
    | loopback i =>
      refine ends_act_loopback (i := i) (o := .detach) rfl rfl ?_
      refine ends_act_loopback (i := i) (o := .abort) rfl rfl ?_
      refine (ends_act_request _).2 ?_
      simp only [answerLayer, ends_run_lift, ends_note]
      refine ⟨hmute _, ?_, hnone, hfound rfl⟩
      rintro l' j hl' hj
      cases hl'
      cases hp.symm.trans hj
      exact Loopback.Net.state_abort _ _
    | external q =>
      refine ends_act_pcb _ .detach fun _ w₁ h₁ => ends_act_pcb _ .abort fun _ w₂ h₂ => ends_act_note _ fun w₃ h₃ => ?_
      refine ⟨hmute _, ?_, hnone, hfound (h₃.trans (h₂.trans h₁))⟩
      rintro l' j hl' hj
      cases hl'
      cases hp.symm.trans hj

/-- What becomes of a chain that is aborted from above it: it is given up, and what stood on it has lost it. -/
def GoneBelow (above i : Handle) (hs : List Handle) (w w' : World H) : Prop :=
  GivenUp (i :: hs) w w' ∧ Cleared i hs (w.stack.posted (knells above (i :: hs))) w'.stack

section

variable (hA : ∀ w : World H, w.stack.Chain (i :: hs) → w.stack.Upright (i :: hs) → 0 < w.stack.depth →
    w.stack.outer? i = some id → Ends (A (.ask i .abort)) w fun _ w' => GoneBelow id i hs w w')
  (he : w.stack.find? id = some e) (hi : e.inner = some i) (hn : id ∉ i :: hs) (ho : w.stack.outer? i = some id)
  (hc : w.stack.Chain (i :: hs)) (hu : w.stack.Upright (i :: hs)) (hd : 0 < w.stack.depth)
include hA he hi hn ho hc hu hd

/-- A layer over others that aborts what is below it. -/
theorem ask_abort_quells {layer layer' : Layer H} (hm : Mute layer') (hl : ∀ l, layer ≠ .plain l) :
    Ends (A (.ask i .abort)) w fun _ w' => ∀ w'' : World H, w''.stack = w'.stack → w''.net = w'.net → ∀ flag,
      Quelled id (i :: hs) w layer ((layer', ()), flag) w'' := by
  refine (hA w hc hu hd ho).mono fun _ w' h w'' hstack hnet flag => ?_
  obtain ⟨hgone, hcleared⟩ := h
  refine ⟨hm, fun l _ hl' => absurd hl' (hl l), fun x hx j hj => ?_, ?_⟩
  · rw [hnet]
    exact (hgone x hx).2 j hj
  · rw [hstack, hcleared.above id hn ho]
    show (w.stack.find? id).map (losing i) = _
    rw [he, Option.map_some, Option.map_some, losing, if_pos hi]

/-- A TLS layer aborts what is below. -/
theorem secure_quelled (l : Tls.Layer H.Source H.Engine) :
    Ends ((runMethod b A id (.op .abort) (.secure l)).run false) w (Quelled id (i :: hs) w (.secure l)) := by
  have hinner : w.stack.inner? id = some i := inner?_eq_some.2 ⟨e, he, hi⟩
  refine ends_run_map ?_
  show Ends ((((Secure.abort id).run l).run (answerLayer b A id)).run false) w _
  unfold Secure.abort
  simp only [ends_act_bind, ends_act_modify, ends_act_inner, hinner]
  refine (ends_act_ask i .abort).2 ?_
  have hmute : Mute (Layer.secure { l with session := none } : Layer H) := fun l' hl' => by cases hl'
  have hsecure : ∀ l' : Plain H.Pcb, (Layer.secure l : Layer H) ≠ .plain l' := fun l' hl' => by cases hl'
  refine (ask_abort_quells hA he hi hn ho hc hu hd hmute hsecure).mono fun _ w₁ h => (ends_act_request _).2 ?_
  simp only [answerLayer, ends_run_lift, ends_note]
  apply h
  · rfl
  · rfl

/-- A layer that hands everything on aborts what is below. -/
theorem passthrough_quelled (name : String) :
    Ends ((runMethod b A id (.op .abort) (.passthrough name)).run false) w
      (Quelled id (i :: hs) w (.passthrough name)) := by
  have hinner : w.stack.inner? id = some i := inner?_eq_some.2 ⟨e, he, hi⟩
  refine ends_run_map ?_
  simp only [Layer.forward, Layer.Act.below, ends_act_bind, ends_act_inner, hinner]
  refine (ends_act_ask i .abort).2 ?_
  have hmute : Mute (Layer.passthrough name : Layer H) := fun l' hl' => by cases hl'
  have hpass : ∀ l' : Plain H.Pcb, (Layer.passthrough name : Layer H) ≠ .plain l' := fun l' hl' => by cases hl'
  exact (ask_abort_quells hA he hi hn ho hc hu hd hmute hpass).mono fun _ w₁ h => h w₁ rfl rfl false

end

/-! ## Aborting a chain -/

/-- What is left of a chain that was aborted in the world `w`, before anybody is told: its connections are given up, and
each of them has left a last event. -/
structure Ruins (id : Handle) (hs : List Handle) (e : Entry H) (w v : World H) : Prop where
  gone : GivenUp (id :: hs) w v
  queue : v.stack.queue = w.stack.queue ++ knells id hs ++ [⟨id, .error .aborted, lastRoute e⟩]
  depth : v.stack.depth = w.stack.depth
  pumping : v.stack.pumping = w.stack.pumping

/-- The connection whose layer has aborted what is below leaves its last event, and is freed. -/
theorem freed_ruins (he : w.stack.find? id = some e) (hl : e.layer = some layer) (hn : id ∉ hs)
    (hself : e.outer ≠ some id) {m : H.Memory} {u : World H} {r : (Layer H × Unit) × Bool}
    (hshed : Shed id hs layer (w.stack.away id) r u.stack)
    (hquelled : Quelled id hs { w with stack := w.stack.away id, memory := m } layer r u) :
    Ends (freeEntry b A k id) { u with stack := (u.stack.back id r.1.1).enqueue id (.error .aborted) } fun _ v =>
      Ruins id hs e w v := by
  obtain ⟨⟨layer', ⟨⟩⟩, flag⟩ := r
  obtain ⟨-, hkind, hstripped⟩ := hshed
  have hkind : OfAKind layer layer' := hkind
  have hlone : OfAKind layer' layer' := by cases hkind <;> constructor
  -- the connection before it is freed
  have hown : u.stack.find? id = some { bare e with inner := none } := by
    rw [hquelled.bereft]
    show ((w.stack.away id).find? id).map _ = _
    rw [find?_away_self he]
    rfl
  have hback : (u.stack.back id layer').find? id = some { e with layer := some layer', inner := none } := by
    rw [find?_back, if_pos rfl, hown]
    rfl
  obtain ⟨⟨e', he', hl', hi', ho'⟩, hothers, hqueue⟩ := enqueue_last hback .aborted
  have hlevel := level_enqueue (s := u.stack.back id layer') id (.error .aborted)
  generalize hs₂ : (u.stack.back id layer').enqueue id (.error .aborted) = s₂ at he' hothers hqueue hlevel ⊢
  have hnet := freeEntry_mute (b := b) (A := A) (k := k) (w := { u with stack := s₂ }) hlone hquelled.mute he' hl' hi'
  have houter : e'.outer ≠ some id := by
    rw [ho']
    exact hself
  have hclear := freeEntry_lone (b := b) (A := A) (w := { u with stack := s₂ }) k hlone he' hl' hi' houter
  refine Ends.mono (fun a v hv => And.intro (hnet a v hv) (hclear a v hv)) ?_
  rintro _ v ⟨hnet, hcleared⟩
  -- those below were gone before
  have hdead : ∀ x ∈ hs, s₂.find? x = none := by
    intro x hx
    have hne : x ≠ id := fun hc => hn (hc ▸ hx)
    rw [hothers x hne, find?_back, if_neg hne]
    exact hstripped.gone x hx
  refine ⟨fun x hx => ⟨?_, fun i hholds => ?_⟩, ?_, ?_, ?_⟩
  · rcases List.mem_cons.1 hx with rfl | hmem
    · exact hcleared.gone x List.mem_cons_self
    · have hne : x ∉ [id] := by
        rw [List.mem_singleton]
        exact fun hc => hn (hc ▸ hmem)
      by_cases hout : s₂.outer? id = some x
      · rw [hcleared.above x hne hout, hdead x hmem]
        rfl
      · rw [hcleared.rest x hne hout, hdead x hmem]
  · rw [show v.net = u.net from hnet]
    rcases List.mem_cons.1 hx with rfl | hmem
    · obtain ⟨e₀, l, he₀, hl₀, hp⟩ := hholds
      cases he.symm.trans he₀
      cases hl.symm.trans hl₀
      exact hquelled.own l i rfl hp
    · refine hquelled.below x hmem i ?_
      have hne : x ≠ id := fun hc => hn (hc ▸ hmem)
      obtain ⟨e₀, l, he₀, hl₀, hp⟩ := hholds
      refine ⟨e₀, l, ?_, hl₀, hp⟩
      show (w.stack.away id).find? x = _
      rw [find?_away, if_neg hne, he₀]
  · rw [hcleared.queue, hqueue]
    show u.stack.queue ++ _ = _
    rw [hstripped.queue]
    rfl
  · rw [hcleared.depth, hlevel.depth]
    show u.stack.depth - 1 = _
    rw [hstripped.depth]
    rfl
  · rw [hcleared.pumping, hlevel.pumping]
    exact hstripped.pumping

/-- **A chain that is aborted** lies in ruins before anybody is told. `hbelow` says what becomes of the rest of the chain
when its first connection aborts it. -/
theorem operate_abort {post : Unit → World H → Prop}
    (hbelow : ∀ y ys above (w : World H), w.stack.Chain (y :: ys) → w.stack.Upright (y :: ys) → 0 < w.stack.depth →
      w.stack.outer? y = some above → Ends (exec b k (.ask y .abort)) w fun _ w' => GoneBelow above y ys w w')
    (hc : w.stack.Chain (id :: hs)) (hu : w.stack.Upright (id :: hs)) (he : w.stack.find? id = some e)
    (hpost : ∀ v, Ruins id hs e w v → Ends (pump b (exec b k) (freeEntry b (exec b k) k) k) v post) :
    Ends (operate b (exec b k) (freeEntry b (exec b k) k) k id .abort) w post := by
  have hn := hu.not_mem
  obtain ⟨e', layer, he', hl, -⟩ := hc.uncons
  cases he.symm.trans he'
  have halive : w.stack.isAlive id = true := isAlive_iff.2 ⟨e, he⟩
  have haway : (w.stack.away id).find? id = some (bare e) := find?_away_self he
  have hself : e.outer ≠ some id := by
    have hapart := hu.apart id List.mem_cons_self
    unfold outer? at hapart
    rwa [he] at hapart
  unfold operate
  simp only [ends_bind, ends_getSlots, halive, if_true, ends_note]
  generalize b.note (.debug "abort requested" [id.field]) w.memory = m
  -- the method of the layer, then the last event, and the connection is freed
  suffices hshed : Ends ((runMethod b (exec b k) id (.op .abort) layer).run false)
      { w with stack := w.stack.away id, memory := m } fun r u =>
        Shed id hs layer (w.stack.away id) r u.stack ∧
          Quelled id hs { w with stack := w.stack.away id, memory := m } layer r u by
    refine ends_withLayer (w := { w with memory := m }) he hl (hshed.mono ?_)
    rintro ⟨⟨layer', ⟨⟩⟩, flag⟩ u ⟨hshed, hquelled⟩
    obtain ⟨e₁, he₁, -⟩ := hshed.2.2.own
    obtain rfl : flag = false := hshed.1
    refine ⟨isAlive_iff.2 ⟨e₁, he₁⟩, (ends_pure _).2 ?_⟩
    have hback : (u.stack.back id layer').isAlive id = true := by
      rw [isAlive_iff, find?_back, if_pos rfl, he₁]
      exact ⟨_, rfl⟩
    simp only [hback, if_true, enqueue, ends_bind, ends_modifySlots]
    exact (freed_ruins he hl hn hself hshed hquelled).mono fun _ v hv => hpost v hv
  have hboth : ∀ {P Q : (Layer H × Unit) × Bool → World H → Prop} {x : Running H (Layer H × Unit)} {w : World H},
      Ends (x.run false) w P → Ends (x.run false) w Q → Ends (x.run false) w fun r u => P r u ∧ Q r u :=
    fun hp hq a v hv => And.intro (hp a v hv) (hq a v hv)
  cases hc with
  | ground hf hl₀ hi =>
    cases he.symm.trans hf
    cases hl.symm.trans hl₀
    apply hboth
    · exact plain_shed (w := { w with stack := w.stack.away id, memory := m }) _ haway hi
    · exact plain_quelled (w := { w with stack := w.stack.away id, memory := m }) _ haway hi
  | secure hf hl₀ hi hc' =>
    cases he.symm.trans hf
    cases hl.symm.trans hl₀
    have hout : (w.stack.away id).outer? _ = some id := (outer?_away _).trans (hu.outer_next he hi)
    apply hboth
    · exact secure_shed (w := { w with stack := w.stack.away id, memory := m })
        (fun w hc hu hd ho => (hbelow _ _ _ w hc hu hd ho).mono fun _ _ h => h.2) haway hi hn hout (hc'.away hn)
        hu.tail.away (Nat.succ_pos _) _
    · exact secure_quelled (w := { w with stack := w.stack.away id, memory := m })
        (fun w hc hu hd ho => hbelow _ _ _ w hc hu hd ho) haway hi hn hout (hc'.away hn) hu.tail.away (Nat.succ_pos _) _
  | passthrough hf hl₀ hi hc' =>
    cases he.symm.trans hf
    cases hl.symm.trans hl₀
    have hout : (w.stack.away id).outer? _ = some id := (outer?_away _).trans (hu.outer_next he hi)
    apply hboth
    · exact passthrough_shed (w := { w with stack := w.stack.away id, memory := m })
        (fun w hc hu hd ho => (hbelow _ _ _ w hc hu hd ho).mono fun _ _ h => h.2) haway hi hn hout (hc'.away hn)
        hu.tail.away (Nat.succ_pos _) _
    · exact passthrough_quelled (w := { w with stack := w.stack.away id, memory := m })
        (fun w hc hu hd ho => hbelow _ _ _ w hc hu hd ho) haway hi hn hout (hc'.away hn) hu.tail.away (Nat.succ_pos _) _

/-- What a connection does with the chain that it stands on and aborts. -/
theorem abort_below (k : Nat) : ∀ (y : Handle) (ys : List Handle) (above : Handle) (w : World H),
    w.stack.Chain (y :: ys) → w.stack.Upright (y :: ys) → 0 < w.stack.depth → w.stack.outer? y = some above →
      Ends (exec b k (.ask y .abort)) w fun _ w' => GoneBelow above y ys w w' := by
  induction k with
  | zero => exact fun y ys above w _ _ _ _ => ends_throw _
  | succ k ih =>
    intro y ys above w hc hu hd ho
    obtain ⟨e, _, he, -, -⟩ := hc.uncons
    have hgone : Ends (exec b (k + 1) (.ask y .abort)) w fun _ w' => GivenUp (y :: ys) w w' := by
      refine operate_abort ih hc hu he fun v hv => ends_pump (.inl ?_) hv.gone
      rw [hv.depth]
      exact hd
    exact fun a v hv => ⟨hgone a v hv, exec_abort (k + 1) hc hu hd ho a v hv⟩

/-- **A chain that is aborted is given up**, if nobody is told at once: a layer is at work, or events are being
delivered. -/
theorem abort_gives_up (k : Nat) (hc : w.stack.Chain (id :: hs)) (hu : w.stack.Upright (id :: hs))
    (hb : Busy w.stack) : Ends (exec b k (.ask id .abort)) w fun _ w' => GivenUp (id :: hs) w w' := by
  cases k with
  | zero => exact ends_throw _
  | succ k =>
    obtain ⟨e, _, he, -, -⟩ := hc.uncons
    refine operate_abort (abort_below k) hc hu he fun v hv => ends_pump ?_ hv.gone
    exact Busy.quiet (Level.busy ⟨hv.depth, hv.pumping⟩ hb)

end Stack

/-! ## Aborting any connection -/

namespace Recorded

open Stack Slots

/-- What is known of a recorded run, whatever its record, is known of the run. -/
theorem Ends.forgotten {α : Type} {x : Recorded H α} {y : Exec H α} {w : World H} {post : α → World H → Prop}
    (hx : Ends x w fun a _ w' => post a w') (h : forget x = y) : Exec.Ends y w post := by
  intro a w' hrun
  obtain ⟨t, ht⟩ := exists_record h hrun
  exact hx (a, t) w' ht

/-- While events are being delivered, a connection that is aborted goes at once. -/
theorem operate_abort_buries [IsEmpty H.Layer] {A : Answers H} {free : Handle → Recorded H Unit} {w : World H}
    {id : Handle} (hA : Modest A) (hfree : Frees free) (k : Nat) (hs : w.stack.Sound [])
    (hp : w.stack.pumping = true) :
    Ends (operate b A free k id .abort) w fun _ _ w' => w'.stack.isAlive id = false := by
  unfold operate
  simp only [ends_bind, ends_lift, ends_getSlots]
  cases ha : w.stack.isAlive id with
  | false => exact (ends_pure _).2 ha
  | true =>
    simp only [if_true, ends_bind, ends_lift, ends_getSlots, ends_record, ends_note]
    have hlow : (Method.op .abort).isLower = true → ([] : List Handle) = [] := fun _ => rfl
    generalize b.note (.debug "abort requested" [id.field]) w.memory = m
    refine (withLayer_ends (w := { w with memory := m }) hA hfree (by simp) hlow hs (clear_nil _ _)).mono ?_
    intro _ t w₁ h
    have ha₁ := (h.aborted rfl).trans ha
    simp only [ha₁, if_true, ends_bind, enqueue, ends_lift, ends_getSlots, ends_record, Stack.enqueue, ends_modifySlots]
    -- its layer has given up, and it is freed
    have hlevel := level_enqueue (s := w₁.stack) id (.error .aborted)
    have hsound := h.sound.enqueue id (.error .aborted)
    obtain ⟨e₁, he₁⟩ := isAlive_iff.1 ha₁
    obtain ⟨⟨e', he', -⟩, -⟩ := enqueue_last he₁ .aborted
    refine (hfree [] id { w₁ with stack := w₁.stack.enqueue id (.error .aborted) } hsound
      (clear_nil _ _) (isAlive_iff.2 ⟨e', he'⟩)).mono ?_
    intro _ u w₂ hfreed
    have hbusy : (decide (0 < w₂.stack.depth) || w₂.stack.pumping) = true := by
      rw [hfreed.shrinks.pumping, show (w₁.stack.enqueue id (.error .aborted)).pumping = true from
        hlevel.pumping.trans (h.pumping.trans hp), Bool.or_true]
    unfold pump
    simp only [ends_bind, ends_lift, ends_getSlots, hbusy, if_true]
    exact (ends_pure _).2 hfreed.gone

end Recorded

namespace Stack

/-- **A connection that is aborted while events are being delivered is gone**, whatever it stands on. -/
theorem abort_buries [IsEmpty H.Layer] {w : World H} {id : Handle} (k : Nat) (hs : w.stack.Sound [])
    (hp : w.stack.pumping = true) : Ends (exec b k (.ask id .abort)) w fun _ w' => w'.stack.isAlive id = false := by
  cases k with
  | zero => exact ends_throw _
  | succ k =>
    have hA := Recorded.exec_orderly (b := b) k
    exact (Recorded.operate_abort_buries hA.toModest (Recorded.freeEntry_frees hA.toModest k) k hs hp).forgotten
      (congrFun (Recorded.forget_exec (k + 1)) (.ask id .abort))

end Stack

end Conduit
