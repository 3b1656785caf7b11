import Conduit.Proofs.Layer.Proper
import Conduit.Proofs.Stack.Chains
import Conduit.Proofs.Stack.Diary

/-!
# Two plain connections in a stack

A plain connection, the sender, stands over one end of a connection of the loopback net; another, the receiver, stands
over the other end. The stack may hold other connections, which play no part.

* `Channel`: the two connections and their endpoints.
* `Channel.Around`, `Channel.Amid`: what is true of the slots, and what the queue and the layer of the receiver hold.
* `Channel.Open`: what is true of the world while the application lives with them: what was said at the sender has been
  accepted at the receiver, is held by its layer, or is not sent yet.
* `Open.sender_ends`, `Open.write_ends`, `Open.mild_ends`: the methods of the two layers that the application asks for.
* `Arrives.ends`, `Judged.ends`: **what the layer of the receiver does with an event and with a verdict.**
-/

namespace Conduit

open Exec Loopback

/-- What an event that waits offers to a connection. -/
def Queued.offer {H : Host} (id : Handle) (q : Queued H) : Option (Option Bytes) :=
  if q.source = id then q.event.offered else none

namespace Slots

variable {H : Host} {s : Slots H} {id x : Handle} {es : List Event} {e : Event}

/-- What waits in the queue is offered to a connection. -/
def offers (s : Slots H) (id : Handle) : List (Option Bytes) := s.queue.filterMap (Queued.offer id)

/-- Events of a connection wait for delivery. -/
def waiting (s : Slots H) (id : Handle) (es : List Event) : Slots H :=
  { s with queue := s.queue ++ es.map fun e => ⟨id, e, .resolve⟩ }

theorem enqueue_tame (s : Slots H) (id : Handle) (he : e.isTame = true) : s.enqueue id e = s.waiting id [e] := by
  cases e with
  | accept | error => cases he
  | _ => rfl

theorem waiting_nil : s.waiting id [] = s := by
  unfold waiting
  rw [List.map_nil, List.append_nil]

theorem waiting_cons : (s.waiting id [e]).waiting id es = s.waiting id (e :: es) := by
  unfold waiting
  simp

theorem offers_waiting : (s.waiting id es).offers id = s.offers id ++ es.filterMap Event.offered := by
  unfold offers waiting
  rw [List.filterMap_append, List.filterMap_map]
  congr 2
  funext e
  simp [Queued.offer]

theorem offers_waiting_of_ne (h : id ≠ x) : (s.waiting id es).offers x = s.offers x := by
  unfold offers waiting
  rw [List.filterMap_append, List.filterMap_map]
  have hnone : (es.filterMap (Queued.offer (H := H) x ∘ fun e => ⟨id, e, .resolve⟩)) = [] := by
    rw [List.filterMap_eq_nil_iff]
    intro e _
    simp [Queued.offer, h]
  rw [hnone, List.append_nil]

end Slots

namespace Stack

/-- A sender and a receiver, and what they begin with. -/
structure Channel where
  sender : Handle
  receiver : Handle
  /-- The endpoint of the sender. -/
  source : Nat
  /-- The endpoint of the receiver. -/
  target : Nat
  /-- How many bytes the receiver has received. -/
  base : Nat
  /-- What the sender has not sent yet. -/
  backlog : Bytes
  /-- How often the callbacks of the receiver were cleared. -/
  epoch : Nat

/-- What the stack is doing while the application runs: nothing, it delivers events, or it has handed data, or the end of
the stream, to the callback of the receiver. -/
inductive Phase
  | idle
  | busy
  | receiving (data : Option Bytes)

/-- Whether events are being delivered. -/
def Phase.pumping : Phase → Bool
  | .idle => false
  | .busy | .receiving _ => true

/-- What the callback of the receiver is at work on. -/
def Phase.work : Phase → List (Option Bytes)
  | .idle | .busy => []
  | .receiving data => [data]

namespace Channel

variable {H : Host} (c : Channel)

/-- What was said at the sender. -/
def said (ds : List Deed) : Bytes := c.backlog ++ wrote c.sender ds

/-- The entry of the sender, which stands over its endpoint or has given it up. -/
structure Sender (e : Entry H) : Prop where
  inner : e.inner = none
  outer : e.outer = none
  layer : ∀ l, e.layer = some l → ∃ P, l = .plain P ∧ P.Over c.source false

/-- The entry of the receiver. Its callback for data is there, unless it is at work. -/
structure Receiver (ph : Phase) (e : Entry H) : Prop where
  inner : e.inner = none
  outer : e.outer = none
  epoch : e.epoch = c.epoch
  recv : ph.work = [] → e.callbacks.recv ≠ none

/-- An event that waits is one of the two connections, and goes to whoever is above. -/
def Awaits (q : Queued H) : Prop :=
  (q.source = c.sender ∨ q.source = c.receiver) ∧ q.event.isTame = true ∧ q.route = .resolve

/-- What is found in the slots, apart from the layer of the receiver. -/
structure Around (ph : Phase) (s : Slots H) : Prop where
  apart : c.sender ≠ c.receiver
  sender : ∀ e, s.find? c.sender = some e → c.Sender e
  receiver : ∃ e, s.find? c.receiver = some e ∧ c.Receiver ph e
  queue : ∀ q ∈ s.queue, c.Awaits q
  pumping : s.pumping = ph.pumping

/-- The layer of the receiver. -/
def Holds (s : Slots H) (P : Plain H.Pcb) : Prop := ∃ e, s.find? c.receiver = some e ∧ e.layer = some (.plain P)

/-- What the diary tells of the receiver: at all times what it had accepted was a prefix of what had been said, and the
end of the stream, once all was accepted, was the last that it was told of. -/
structure Kept (ds : List Deed) : Prop where
  prefixes : ∀ t, t <+: ds → accepted c.receiver t <+: c.said t
  last : ∀ t v u, ds = t ++ .got c.receiver none v :: u →
    accepted c.receiver t = c.said t ∧ ∀ data v', .got c.receiver data v' ∉ u

/-- The layer of the receiver is `P` and has got `brought`; the application, whose diary is `ds`, is handed `work`. -/
structure Amid (ph : Phase) (work : List (Option Bytes)) (ds : List Deed) (brought : Bytes) (fin : Bool)
    (P : Plain H.Pcb) (s : Slots H) : Prop where
  around : c.Around ph s
  takes : P.Takes c.target brought fin (accepted c.receiver ds) (refused c.receiver ds) (ended c.receiver ds)
    (work ++ s.offers c.receiver)
  kept : c.Kept ds

/-- The world of the two connections, of what was `said` and of a diary. -/
def Has (ph : Phase) (work : List (Option Bytes)) (ds : List Deed) (said : Bytes) (w : World H) : Prop :=
  ∃ brought fin P, w.net.Streams c.source c.target c.sender c.receiver c.base said brought fin ∧
    c.Amid ph work ds brought fin P w.stack ∧ c.Holds w.stack P

/-- An event has been brought to the receiver, of which its layer does not know yet. -/
def Arrives (ph : Phase) (e : Event) (ds : List Deed) (said : Bytes) (w : World H) : Prop :=
  ∃ brought fin brought' fin' P, e.Brings brought fin brought' fin' ∧
    w.net.Streams c.source c.target c.sender c.receiver c.base said brought' fin' ∧
    c.Amid ph ph.work ds brought fin P w.stack ∧ c.Holds w.stack P

variable {c} {ph ph' : Phase} {s s' : Slots H} {id : Handle} {f : Entry H → Entry H} {es : List Event} {ds : List Deed}
  {work work' : List (Option Bytes)} {brought said : Bytes} {fin : Bool} {P : Plain H.Pcb}

/-! ## Changes of the slots -/

theorem Around.update (h : c.Around ph s) (hs : id = c.sender → ∀ e, c.Sender e → c.Sender (f e))
    (hr : id = c.receiver → ∀ e, c.Receiver ph e → c.Receiver ph (f e)) : c.Around ph (s.update id f) := by
  refine ⟨h.apart, fun e he => ?_, ?_, h.queue, h.pumping⟩
  · rw [Slots.find?_update] at he
    split at he
    · rename_i heq
      cases heq
      obtain ⟨e₀, he₀, rfl⟩ := Option.map_eq_some_iff.1 he
      exact hs rfl e₀ (h.sender e₀ he₀)
    · exact h.sender e he
  · obtain ⟨e, he, her⟩ := h.receiver
    rw [Slots.find?_update]
    split
    · rename_i heq
      rw [← heq, he]
      exact ⟨f e, rfl, hr heq.symm e her⟩
    · exact ⟨e, he, her⟩

/-- The receiver changes as the phase does. -/
theorem Around.turns (h : c.Around ph s) (hp : ph'.pumping = ph.pumping)
    (hf : ∀ e, c.Receiver ph e → c.Receiver ph' (f e)) : c.Around ph' (s.update c.receiver f) := by
  refine ⟨h.apart, fun e he => ?_, ?_, h.queue, h.pumping.trans hp.symm⟩
  · rw [Slots.find?_update_of_ne h.apart] at he
    exact h.sender e he
  · obtain ⟨e, he, her⟩ := h.receiver
    refine ⟨f e, ?_, hf e her⟩
    rw [Slots.find?_update_self, he]
    rfl

/-- Events are delivered from now on, or no longer. -/
theorem Around.paced (h : c.Around ph s) (hp : ph'.work = ph.work) :
    c.Around ph' { s with pumping := ph'.pumping } := by
  obtain ⟨e, he, her⟩ := h.receiver
  exact ⟨h.apart, h.sender, ⟨e, he, her.inner, her.outer, her.epoch, fun hw => her.recv (hp.symm.trans hw)⟩, h.queue, rfl⟩

/-- The same is found, whatever the depth. -/
theorem Around.of_same (h : c.Around ph s) (hslots : s'.slots = s.slots) (hqueue : s'.queue = s.queue)
    (hpumping : s'.pumping = s.pumping) : c.Around ph s' := by
  obtain ⟨slots, free, queue, depth, pumping, live⟩ := s
  obtain ⟨slots', free', queue', depth', pumping', live'⟩ := s'
  cases hslots
  cases hqueue
  cases hpumping
  exact ⟨h.apart, h.sender, h.receiver, h.queue, h.pumping⟩

/-- A layer is put into a slot. -/
theorem Around.back {l : Layer H} (h : c.Around ph s)
    (hl : id = c.sender → ∃ P, l = .plain P ∧ P.Over c.source false) : c.Around ph (s.back id l) := by
  refine Around.update (s := { s with depth := s.depth - 1 }) (h.of_same rfl rfl rfl) (fun hid e he => ?_) ?_
  · refine ⟨he.inner, he.outer, fun l' hl' => ?_⟩
    cases hl'
    exact hl hid
  · exact fun _ e he => ⟨he.inner, he.outer, he.epoch, he.recv⟩

/-- A layer is taken out of a slot. -/
theorem Around.away (h : c.Around ph s) : c.Around ph (s.away id) := by
  refine Around.of_same (s := s.update id Slots.bare) (h.update ?_ ?_) rfl rfl rfl
  · refine fun _ e he => ⟨he.inner, he.outer, fun l hl => ?_⟩
    have hnone : none = some l := hl
    cases hnone
  · exact fun _ e he => ⟨he.inner, he.outer, he.epoch, he.recv⟩

theorem Around.waiting (h : c.Around ph s) (hid : id = c.sender ∨ id = c.receiver)
    (hes : ∀ e ∈ es, e.isTame = true) : c.Around ph (s.waiting id es) := by
  refine ⟨h.apart, h.sender, h.receiver, fun q hq => ?_, h.pumping⟩
  rcases List.mem_append.1 hq with hq | hq
  · exact h.queue q hq
  · obtain ⟨e, he, rfl⟩ := List.mem_map.1 hq
    exact ⟨hid, hes e he, rfl⟩

/-- The sender has gone. -/
theorem Around.cleared (h : c.Around ph s) (hc : Slots.Cleared c.sender [] s s') : c.Around ph s' := by
  have houter : s.outer? c.sender = none := by
    unfold Slots.outer?
    cases he : s.find? c.sender with
    | none => rfl
    | some e => exact (h.sender e he).outer
  refine ⟨h.apart, fun e he => ?_, ?_, hc.queue ▸ h.queue, hc.pumping.trans h.pumping⟩
  · rw [hc.gone c.sender List.mem_cons_self] at he
    cases he
  · rw [hc.rest c.receiver (by simpa using h.apart.symm) (by simp [houter])]
    exact h.receiver

theorem Amid.of_around (h : c.Amid ph work ds brought fin P s) (ha : c.Around ph' s')
    (hout : work' ++ s'.offers c.receiver = work ++ s.offers c.receiver) : c.Amid ph' work' ds brought fin P s' :=
  ⟨ha, hout ▸ h.takes, h.kept⟩

theorem Amid.of_same (h : c.Amid ph work ds brought fin P s) (ha : c.Around ph s') (hq : s'.queue = s.queue) :
    c.Amid ph work ds brought fin P s' := by
  refine h.of_around ha ?_
  unfold Slots.offers
  rw [hq]

theorem Holds.update (h : c.Holds s P) (hf : id = c.receiver → ∀ e, (f e).layer = e.layer) :
    c.Holds (s.update id f) P := by
  obtain ⟨e, he, hl⟩ := h
  unfold Holds
  rw [Slots.find?_update]
  split
  · rename_i heq
    rw [← heq, he]
    exact ⟨f e, rfl, (hf heq.symm e).trans hl⟩
  · exact ⟨e, he, hl⟩

/-- The layer of the sender is away, or back. -/
theorem Holds.away (h : c.Holds s P) (hne : c.sender ≠ c.receiver) : c.Holds (s.away c.sender) P :=
  h.update (f := Slots.bare) fun hc => absurd hc hne

theorem Holds.back {l : Layer H} (h : c.Holds s P) (hne : c.sender ≠ c.receiver) : c.Holds (s.back c.sender l) P :=
  Holds.update (s := { s with depth := s.depth - 1 }) h fun hc => absurd hc hne

/-- The layer of the receiver is put back. -/
theorem holds_back (h : c.Around ph s) : c.Holds (s.back c.receiver (.plain P)) P := by
  obtain ⟨e, he, -⟩ := h.receiver
  refine ⟨{ e with layer := some (.plain P) }, ?_, rfl⟩
  rw [Slots.find?_back, if_pos rfl, he]
  rfl

/-! ## Entries in the diary -/

/-- The diary has a new entry. -/
theorem Kept.append (h : c.Kept ds) {d : Deed} (hp : accepted c.receiver (ds ++ [d]) <+: c.said (ds ++ [d]))
    (hend : ∀ data v, d = .got c.receiver data v → ended c.receiver ds = false)
    (hall : ∀ v, d = .got c.receiver none v → accepted c.receiver ds = c.said ds) : c.Kept (ds ++ [d]) := by
  refine ⟨fun t ht => ?_, fun t v u hu => ?_⟩
  · rcases List.prefix_concat_iff.1 ht with rfl | ht
    · exact hp
    · exact h.prefixes t ht
  · rcases List.eq_nil_or_concat u with rfl | ⟨u, d', rfl⟩
    · obtain ⟨rfl, hd⟩ := List.append_inj' hu rfl
      exact ⟨hall v (List.singleton_inj.1 hd), by simp⟩
    · rw [List.concat_eq_append, ← List.cons_append, ← List.append_assoc] at hu
      obtain ⟨rfl, hd⟩ := List.append_inj' hu rfl
      cases List.singleton_inj.1 hd
      obtain ⟨hall', hlast⟩ := h.last t v u rfl
      refine ⟨hall', fun data v' hm => ?_⟩
      rw [List.concat_eq_append] at hm
      rcases List.mem_append.1 hm with hm | hm
      · exact hlast data v' hm
      · have hended := hend data v' (List.mem_singleton.1 hm).symm
        rw [← List.singleton_append, ended_append, ended_append, ended_end] at hended
        simp at hended

/-- An entry that tells nothing of the receiver. -/
theorem Amid.entered (h : c.Amid ph work ds brought fin P s) {d : Deed} (hd : ∀ data v, d ≠ .got c.receiver data v) :
    c.Amid ph work (ds ++ [d]) brought fin P s := by
  have hsame : accepted c.receiver [d] = [] ∧ refused c.receiver [d] = false ∧ ended c.receiver [d] = false := by
    cases d with
    | wrote id data => exact ⟨rfl, rfl, rfl⟩
    | got id data v =>
      have hne : id ≠ c.receiver := fun hid => hd data v (hid ▸ rfl)
      exact ⟨accepted_of_ne hne data v, refused_of_ne hne data v, ended_of_ne hne data v⟩
  obtain ⟨ha, hr, he⟩ := hsame
  refine ⟨h.around, ?_, h.kept.append ?_ ?_ ?_⟩
  · rw [accepted_append, refused_append, ended_append, ha, hr, he, List.append_nil, Bool.or_false, Bool.or_false]
    exact h.takes
  · rw [accepted_append, ha, List.append_nil]
    have hp := h.kept.prefixes ds (List.prefix_refl ds)
    unfold Channel.said at hp ⊢
    rw [wrote_append, ← List.append_assoc]
    exact hp.trans (List.prefix_append _ _)
  · exact fun data v hd' => absurd hd' (hd data v)
  · exact fun v hd' => absurd hd' (hd none v)

/-! ## Programs of a layer -/

section

variable {α : Type} {b : Behaviour H.diarist} {A : Answers H.diarist} {w : World H.diarist} {flag : Bool}
  {P : Plain H.diarist.Pcb}

/-- Notes do not touch the diary. -/
theorem ends_notes (ns : List Note) {post : Unit → World H.diarist → Prop}
    (h : ∀ m, post () { w with memory := (m, w.memory.2) }) : Ends (notes b.diarist ns) w post := by
  unfold notes
  induction ns generalizing w with
  | nil => exact (ends_pure ()).2 (h w.memory.1)
  | cons n ns ih =>
    show Ends (note b.diarist n >>= fun _ => ns.forM (note b.diarist)) w post
    rw [ends_bind, ends_note]
    exact ih h

theorem ends_performPcb {i : Nat} {o : PcbOp} {post : o.Reply → World H.diarist → Prop}
    (h : ∀ r m, w.net.perform i o = .ok r → post r.value { w with net := r.net, memory := (m, w.memory.2) }) :
    Ends (performPcb b.diarist (.loopback i) o) w post := by
  unfold performPcb
  simp only [ends_bind, ends_get]
  split
  · exact ends_throw _
  · rename_i r hr
    simp only [ends_bind, ends_modify]
    exact ends_notes _ fun m => (ends_pure _).2 (h r m hr)

/-- A layer that only tells leaves events in the queue. -/
theorem tells_ends {p : Program (Layer.io H.diarist) α} {es : List Event} {a : α} (h : p.Tells es a)
    (hes : ∀ e ∈ es, e.isTame = true) :
    Ends ((p.run (answerLayer b.diarist A id)).run flag) w fun r w' =>
      r = (a, flag) ∧ ∃ m, w' = { w with stack := w.stack.waiting id es, memory := (m, w.memory.2) } := by
  induction h generalizing w with
  | done =>
    refine (ends_run_pure _).2 ⟨rfl, w.memory.1, ?_⟩
    rw [Slots.waiting_nil]
  | note _ ih =>
    rw [Program.run_ask]
    refine (ends_run_bind _ _).2 ?_
    simp only [answerLayer, ends_run_lift, ends_note]
    exact (ih hes).mono fun _ _ h => h
  | @emit e next es a _ ih =>
    rw [Program.run_ask]
    refine (ends_run_bind _ _).2 ?_
    have he := Slots.enqueue_tame w.stack id (hes e List.mem_cons_self)
    simp only [answerLayer, Stack.enqueue, ends_run_lift, ends_modifySlots, he]
    refine (ih fun e' he' => hes e' (List.mem_cons_of_mem _ he')).mono ?_
    rintro r w' ⟨hr, m, hw⟩
    refine ⟨hr, m, ?_⟩
    rw [hw]
    simp only [Slots.waiting_cons]

/-- What each request of a layer preserves, the layer does. -/
theorem meets_ends {R : Layer.Req H.diarist → Prop} {post : α → Bool → Prop} {J : World H.diarist → Prop}
    {p : Program (Layer.io H.diarist) α} (hp : p.Meets R post flag)
    (hJ : ∀ r, R r → ∀ flag w, J w → Ends ((answerLayer b.diarist A id r).run flag) w fun x w' => x.2 = flag ∧ J w')
    (hw : J w) : Ends ((p.run (answerLayer b.diarist A id)).run flag) w fun r w' => post r.1 r.2 ∧ J w' := by
  induction p generalizing flag w with
  | done a => exact (ends_run_pure a).2 ⟨hp, hw⟩
  | ask r next ih =>
    rw [Program.run_ask]
    refine (ends_run_bind _ _).2 ?_
    cases r with
    | release => exact (ends_pure ((), true)).2 (ih () hp hw)
    | _ =>
      refine (hJ _ hp.1 flag w hw).mono ?_
      rintro ⟨x, flag'⟩ w' ⟨rfl, hw'⟩
      exact ih x (hp.2 x) hw'

/-! ## The layer of the sender -/

/-- The diary and the depth are the same. -/
structure Level (w w' : World H.diarist) : Prop where
  diary : w'.memory.2 = w.memory.2
  depth : w'.stack.depth = w.stack.depth

theorem Level.trans {w₁ w₂ : World H.diarist} (h : Level w w₁) (h' : Level w₁ w₂) : Level w w₂ :=
  ⟨h'.diary.trans h.diary, h'.depth.trans h.depth⟩

/-- A connection that has given its endpoint up, and is linked to no other, is freed. -/
theorem freeEntry_ends {k : Nat} {e : Entry H.diarist} (he : w.stack.find? id = some e)
    (hl : e.layer = some (.plain P)) (hp : P.pcb = none) (hi : e.inner = none) (ho : e.outer = none) :
    Ends (freeEntry b.diarist A k id) w fun _ w' =>
      Slots.Cleared id [] w.stack w'.stack ∧ w'.net = w.net ∧ w'.memory.2 = w.memory.2 := by
  have hcleared := freeEntry_lone (b := b.diarist) (A := A) k (.plain P P) he hl hi (by simp [ho])
  suffices hrest : Ends (freeEntry b.diarist A k id) w fun _ w' => w'.net = w.net ∧ w'.memory.2 = w.memory.2 from
    fun a w' hrun => ⟨hcleared a w' hrun, hrest a w' hrun⟩
  cases k with
  | zero => exact ends_throw _
  | succ k =>
    unfold freeEntry dealloc
    simp only [ends_bind, ends_lookup, he, Option.bind_some, hl, ends_modifySlots]
    obtain ⟨pcb, rx, inFlight, finPending, finDelivered, rxShut⟩ := P
    cases hp
    -- the layer has nothing to say farewell to
    refine ends_run_map ((ends_run_pure _).2 ?_)
    have hfind : Slots.find? { w.stack.away id with depth := (w.stack.away id).depth - 1 } id = some (Slots.bare e) := by
      refine (Slots.find?_away (s := w.stack)).trans ?_
      rw [if_pos rfl, he]
      rfl
    have hfind' : (Slots.find? { (w.stack.update id fun e => { e with layer := none }) with
        depth := w.stack.depth + 1 - 1 } id) = some (Slots.bare e) := hfind
    simp only [hfind', Slots.bare, hi, ho, ends_bind, ends_modifySlots, ends_note]
    exact ⟨trivial, rfl⟩

section

variable {k : Nat} (h : c.Has ph work ds said w)
include h

/-- The layer of the sender is away. -/
theorem Has.away : c.Has ph work ds said { w with stack := w.stack.away c.sender } := by
  obtain ⟨brought, fin, P, hn, ha, hh⟩ := h
  exact ⟨brought, fin, P, hn, ha.of_same ha.around.away rfl, hh.away ha.around.apart⟩

/-- The layer of the sender is back. -/
theorem Has.back (hP : P.Over c.source false) :
    c.Has ph work ds said { w with stack := w.stack.back c.sender (.plain P) } := by
  obtain ⟨brought, fin, P', hn, ha, hh⟩ := h
  exact ⟨brought, fin, P', hn, ha.of_same (ha.around.back fun _ => ⟨P, rfl, hP⟩) rfl, hh.back ha.around.apart⟩

/-- The sender has gone. -/
theorem Has.cleared {w' : World H.diarist} (hc : Slots.Cleared c.sender [] w.stack w'.stack) (hn : w'.net = w.net) :
    c.Has ph work ds said w' := by
  obtain ⟨brought, fin, P, hs, ha, hh⟩ := h
  refine ⟨brought, fin, P, hn ▸ hs, ha.of_same (ha.around.cleared hc) hc.queue, ?_⟩
  obtain ⟨e, he, hl⟩ := hh
  have houter : w.stack.outer? c.sender ≠ some c.receiver := by
    intro hc
    obtain ⟨e, he, ho⟩ := Slots.outer?_eq_some.1 hc
    rw [(ha.around.sender e he).outer] at ho
    cases ho
  exact ⟨e, (hc.rest c.receiver (by simpa using ha.around.apart.symm) houter).trans he, hl⟩

end

/-- The world while the layer of the sender runs. -/
structure Speaking (c : Channel) (ph : Phase) (work : List (Option Bytes)) (ds : List Deed) (said : Bytes)
    (w w' : World H.diarist) : Prop where
  has : c.Has ph work ds said w'
  level : Level w w'
  alive : w'.stack.isAlive c.sender = true

/-- Whatever the layer of the sender asks for, the two connections are as before. -/
theorem Speaking.answer_ends {r : Layer.Req H.diarist} {w' : World H.diarist}
    (h : Speaking c ph work ds said w w') (hr : r.IsProper c.source c.sender) :
    Ends ((answerLayer b.diarist A c.sender r).run flag) w' fun x w'' =>
      x.2 = flag ∧ Speaking c ph work ds said w w'' := by
  obtain ⟨⟨brought, fin, P, hn, ha, hh⟩, hlevel, halive⟩ := h
  cases r with
  | emit e =>
    have hes : ∀ e' ∈ [e], e'.isTame = true := by
      intro e' he'
      rw [List.mem_singleton.1 he']
      exact hr
    have he := Slots.enqueue_tame w'.stack c.sender hr
    simp only [answerLayer, Stack.enqueue, ends_run_lift, ends_modifySlots, he]
    refine ⟨trivial, ⟨brought, fin, P, hn, ?_, hh⟩, ⟨hlevel.diary, hlevel.depth⟩, halive⟩
    refine ha.of_around (ha.around.waiting (.inl rfl) hes) ?_
    rw [Slots.offers_waiting_of_ne ha.around.apart]
  | note n =>
    simp only [answerLayer, ends_run_lift, ends_note]
    exact ⟨trivial, ⟨brought, fin, P, hn, ha, hh⟩, ⟨hlevel.diary, hlevel.depth⟩, halive⟩
  | pollInterval =>
    simp only [answerLayer, ends_run_bind, ends_run_lift, ends_lookup, ends_run_pure]
    exact ⟨trivial, ⟨brought, fin, P, hn, ha, hh⟩, hlevel, halive⟩
  | pcb p o =>
    obtain ⟨rfl, hcalm, hwrite, hattach⟩ := hr
    simp only [answerLayer, ends_run_lift]
    refine ends_performPcb fun res m hres => ⟨trivial, ?_, ⟨hlevel.diary, hlevel.depth⟩, halive⟩
    exact ⟨brought, fin, P, hn.perform_sender hcalm hwrite hattach hres, ha, hh⟩
  | inner | ask | release | fail | cover | newEngine | shared | setShared => cases hr

/-- **A method of the sender**, other than a write. -/
theorem Has.sender_ends {m : Method} {k : Nat} (h : c.Has ph work ds said w) (hm : m.IsProper) :
    Ends (withLayer b.diarist A (freeEntry b.diarist A k) c.sender m) w fun _ w' =>
      c.Has ph work ds said w' ∧ Level w w' := by
  have hsame : c.Has ph work ds said w ∧ Level w w := ⟨h, rfl, rfl⟩
  cases he : w.stack.find? c.sender with
  | none =>
    unfold withLayer
    simp only [ends_bind, ends_lookup, he, ends_pure]
    exact hsame
  | some e =>
    cases hl : e.layer with
    | none =>
      unfold withLayer
      simp only [ends_bind, ends_lookup, he, hl, ends_pure]
      exact hsame
    | some l =>
      obtain ⟨brought, fin, P', hn, ha, hh⟩ := id h
      obtain ⟨P, rfl, hP⟩ := (ha.around.sender e he).layer l hl
      have haway : (w.stack.away c.sender).find? c.sender = some (Slots.bare e) := Slots.find?_away_self he
      refine ends_withLayer he hl (ends_run_map ((meets_ends (J := Speaking c ph work ds said
        { w with stack := w.stack.away c.sender }) (Plain.step_proper hP hm)
        (fun r hr flag w' hw' => hw'.answer_ends hr) ⟨h.away, ⟨rfl, rfl⟩, Slots.isAlive_iff.2 ⟨_, haway⟩⟩).mono ?_))
      rintro ⟨⟨reply, P₁⟩, released⟩ w₁ ⟨hP₁, hw₁⟩
      have hdepth : w₁.stack.depth - 1 = w.stack.depth := by
        rw [hw₁.level.depth]
        rfl
      refine ⟨hw₁.alive, ?_⟩
      have hback : c.Has ph work ds said { w₁ with stack := w₁.stack.back c.sender (.plain P₁) } :=
        hw₁.has.back ⟨hP₁.1, by simp⟩
      cases released with
      | false => exact (ends_pure _).2 ⟨hback, hw₁.level.diary, hdepth⟩
      | true =>
        -- what is freed has given its endpoint up
        obtain ⟨e₁, he₁⟩ := Slots.isAlive_iff.1 hw₁.alive
        obtain ⟨_, _, _, _, ha₁, _⟩ := hw₁.has
        have hs := ha₁.around.sender e₁ he₁
        have hfound : (w₁.stack.back c.sender (.plain P₁)).find? c.sender =
            some { e₁ with layer := some (.plain P₁) } := by
          rw [Slots.find?_back, if_pos rfl, he₁]
          rfl
        refine (freeEntry_ends (w := { w₁ with stack := w₁.stack.back c.sender (.plain P₁) }) hfound rfl (hP₁.2 rfl)
          hs.inner hs.outer).mono ?_
        rintro _ w₂ ⟨hc, hnet, hmem⟩
        exact ⟨hback.cleared hc hnet, hmem.trans hw₁.level.diary, hc.depth.trans hdepth⟩

/-- **A write of the sender** takes all of the data or nothing of it. -/
theorem Has.write_ends {data : Bytes} {flags : WriteFlags} {free : Handle → Exec H.diarist Unit}
    (h : c.Has ph work ds said w) :
    Ends (withLayer b.diarist A free c.sender (.op (.write data flags))) w fun r w' =>
      (r = .ok (.ok ()) ∧ c.Has ph work ds (said ++ data) w' ∨ r ≠ .ok (.ok ()) ∧ c.Has ph work ds said w') ∧
        Level w w' ∧ w'.stack.queue = w.stack.queue := by
  cases he : w.stack.find? c.sender with
  | none =>
    unfold withLayer
    simp only [ends_bind, ends_lookup, he, ends_pure]
    exact ⟨.inr ⟨by simp, h⟩, ⟨rfl, rfl⟩, trivial⟩
  | some e =>
    cases hl : e.layer with
    | none =>
      unfold withLayer
      simp only [ends_bind, ends_lookup, he, hl, ends_pure]
      exact ⟨.inr ⟨by simp, h⟩, ⟨rfl, rfl⟩, trivial⟩
    | some l =>
      obtain ⟨brought, fin, P', hn, ha, hh⟩ := h.away
      obtain ⟨_, _, _, _, ha₀, _⟩ := id h
      obtain ⟨P, rfl, hP⟩ := (ha₀.around.sender e he).layer l hl
      have halive : (w.stack.away c.sender).isAlive c.sender = true := Slots.isAlive_away he
      refine ends_withLayer he hl (ends_run_map ?_)
      obtain ⟨pcb, rx, inFlight, finPending, finDelivered, rxShut⟩ := P
      obtain ⟨rfl | rfl, hflag⟩ := id hP
      · refine (ends_run_pure _).2 ⟨halive, (ends_pure _).2 ⟨.inr ⟨by simp, ?_⟩, ⟨rfl, rfl⟩, rfl⟩⟩
        exact h.away.back hP
      · show Ends ((((Layer.Act.pcb (.loopback c.source) (.write data flags) : Plain.Act H.diarist Outcome).run _).run
          (answerLayer b.diarist A c.sender)).run false) _ _
        refine (ends_act_request _).2 ?_
        simp only [answerLayer, ends_run_lift]
        refine ends_performPcb fun res m hres => ⟨halive, (ends_pure _).2 ⟨?_, ⟨rfl, rfl⟩, rfl⟩⟩
        rw [Net.perform_write] at hres
        cases hres
        have hback : ∀ said', (w.net.write c.source data).1.Streams c.source c.target c.sender c.receiver c.base said'
            brought fin → c.Has ph work ds said' { w with
              stack := (w.stack.away c.sender).back c.sender (.plain ⟨_, rx, inFlight, finPending, finDelivered, rxShut⟩)
              net := (w.net.write c.source data).1, memory := (m, w.memory.2) } :=
          fun said' hn' => Has.back (w := { w with stack := _, net := _, memory := _ }) ⟨brought, fin, P', hn', ha, hh⟩ hP
        rcases hn.write_sender data with ⟨hv, hn'⟩ | ⟨hv, hn'⟩
        · exact .inl ⟨congrArg _ hv, hback _ hn'⟩
        · exact .inr ⟨fun hc => hv (Except.ok.inj hc), hback _ (hn'.symm ▸ hn)⟩

/-! ## The layer of the receiver -/

/-- The layer of the receiver is put back as it was. -/
theorem Amid.back (h : c.Amid ph work ds brought fin P w.stack) {s : Slots H.diarist}
    (hs : s = (w.stack.away c.receiver).back c.receiver (.plain P)) : c.Amid ph work ds brought fin P s := by
  subst hs
  exact h.of_same (h.around.away.back fun hc => absurd hc.symm h.around.apart) rfl

/-- **An operation of the receiver**, which leaves its layer as it is. -/
theorem Has.mild_ends {o : Op} {free : Handle → Exec H.diarist Unit} (h : c.Has ph work ds said w)
    (ho : o.isMild = true) :
    Ends (withLayer b.diarist A free c.receiver (.op o)) w fun _ w' =>
      c.Has ph work ds said w' ∧ Level w w' ∧ w'.stack.queue = w.stack.queue := by
  obtain ⟨brought, fin, P, hn, ha, e, he, hl⟩ := h
  have haway : (w.stack.away c.receiver).find? c.receiver = some (Slots.bare e) := Slots.find?_away_self he
  -- all that happens is that the endpoint is asked
  let J (w' : World H.diarist) : Prop := w'.stack = w.stack.away c.receiver ∧ w'.memory.2 = w.memory.2 ∧
    w'.net.Streams c.source c.target c.sender c.receiver c.base said brought fin
  have hJ : ∀ r : Layer.Req H.diarist, (∃ o, r = .pcb (.loopback c.target) o ∧ o.isMild = true) → ∀ flag w', J w' →
      Ends ((answerLayer b.diarist A c.receiver r).run flag) w' fun x w'' => x.2 = flag ∧ J w'' := by
    rintro _ ⟨o, rfl, ho⟩ flag w' ⟨hs, hm, hn'⟩
    simp only [answerLayer, ends_run_lift]
    exact ends_performPcb fun res m hres => ⟨trivial, hs, hm, hn'.perform_receiver ho hres⟩
  refine ends_withLayer he hl (ends_run_map ((meets_ends (Plain.step_mild ha.takes.pcb ho) hJ
    (show J { w with stack := w.stack.away c.receiver } from ⟨rfl, rfl, hn⟩)).mono ?_))
  rintro ⟨⟨reply, P'⟩, released⟩ w₁ ⟨⟨rfl, rfl⟩, hs, hm, hn'⟩
  refine ⟨Slots.isAlive_iff.2 ⟨_, hs ▸ haway⟩, (ends_pure _).2 ⟨⟨brought, fin, P', hn', ha.back ?_, ?_⟩, ⟨hm, ?_⟩, ?_⟩⟩
  · rw [hs]
  · rw [hs]
    exact holds_back ha.around.away
  · show w₁.stack.depth - 1 = w.stack.depth
    rw [hs]
    rfl
  · show w₁.stack.queue = w.stack.queue
    rw [hs]
    rfl

/-- A method of the receiver that only tells. -/
theorem tells_back {m : Method} {reply : m.Reply} {P' : Plain H.diarist.Pcb} {es : List Event} {e : Entry H.diarist}
    {free : Handle → Exec H.diarist Unit} (ht : (Plain.step id m P).Tells es (reply, P'))
    (hes : ∀ e ∈ es, e.isTame = true) (he : w.stack.find? id = some e) (hl : e.layer = some (.plain P)) :
    Ends (withLayer b.diarist A free id m) w fun r w' => r = .ok reply ∧ ∃ mem, w' = { w with
      stack := ((w.stack.away id).waiting id es).back id (.plain P'), memory := (mem, w.memory.2) } := by
  have haway : (w.stack.away id).find? id = some (Slots.bare e) := Slots.find?_away_self he
  refine ends_withLayer he hl (ends_run_map ((tells_ends ht hes).mono ?_))
  rintro r w' ⟨rfl, mem, rfl⟩
  exact ⟨Slots.isAlive_iff.2 ⟨_, haway⟩, (ends_pure _).2 ⟨rfl, mem, rfl⟩⟩

/-- The slots after a method of the receiver that tells `es`. -/
theorem Around.told {mem : H.Memory} {P' : Plain H.diarist.Pcb} (h : c.Around ph w.stack)
    (hes : ∀ e ∈ es, e.isTame = true) {w' : World H.diarist} (hw : w' = { w with
      stack := ((w.stack.away c.receiver).waiting c.receiver es).back c.receiver (.plain P')
      memory := (mem, w.memory.2) }) :
    c.Around ph w'.stack ∧ c.Holds w'.stack P' ∧ Level w w' ∧
      w'.stack.offers c.receiver = w.stack.offers c.receiver ++ es.filterMap Event.offered := by
  subst hw
  have haway : c.Around ph (w.stack.away c.receiver) := h.away
  have ha := haway.waiting (.inr rfl) hes
  exact ⟨ha.back fun hc => absurd hc.symm h.apart, holds_back ha, ⟨rfl, rfl⟩, Slots.offers_waiting⟩

/-- **What arrives at the receiver** is held by its layer, and offered once what was offered before is settled. -/
theorem Arrives.ends {e : Event} {free : Handle → Exec H.diarist Unit} (h : c.Arrives ph e ds said w) :
    Ends (withLayer b.diarist A free c.receiver (.op (.lower e))) w fun _ w' =>
      c.Has ph ph.work ds said w' ∧ Level w w' := by
  obtain ⟨brought, fin, brought', fin', P, hb, hn, ha, e₀, he, hl⟩ := h
  obtain ⟨es, P', ht, hes, htakes⟩ := ha.takes.lower hb c.receiver
  refine (tells_back ht hes he hl).mono ?_
  rintro r w' ⟨-, mem, hw⟩
  obtain ⟨haround, hholds, hlevel, hoffers⟩ := ha.around.told hes hw
  refine ⟨⟨brought', fin', P', by rw [hw]; exact hn, ⟨haround, ?_, ha.kept⟩, hholds⟩, hlevel⟩
  rw [hoffers, ← List.append_assoc]
  exact htakes

/-- **A verdict of the receiver** on data. What it accepted was said. -/
theorem Has.settled_ends {text : Bytes} {v : Outcome} {free : Handle → Exec H.diarist Unit}
    (h : c.Has ph [some text] ds (c.said ds) w) :
    Ends (withLayer b.diarist A free c.receiver (.settled v)) w fun _ w' =>
      c.Has ph [] (ds ++ [.got c.receiver (some text) v]) (c.said ds) w' ∧ Level w w' := by
  obtain ⟨brought, fin, P, hn, ha, e₀, he, hl⟩ := h
  have htakes := ha.takes
  rw [List.singleton_append] at htakes
  obtain ⟨hout, htold, hprefix, es, P', ht, hes, htakes'⟩ := htakes.settle c.receiver v
  refine (tells_back ht hes he hl).mono ?_
  rintro r w' ⟨-, mem, hw⟩
  obtain ⟨haround, hholds, hlevel, hoffers⟩ := ha.around.told hes hw
  refine ⟨⟨brought, fin, P', by rw [hw]; exact hn, ⟨haround, ?_, ha.kept.append ?_ ?_ nofun⟩, hholds⟩, hlevel⟩
  · rw [hoffers, hout, accepted_append, refused_append, ended_append, htold, ended_data]
    cases v with
    | ok u =>
      rw [accepted_accepted, refused_accepted, Bool.or_false]
      exact htakes'
    | error f =>
      rw [accepted_refused, refused_refused, Bool.or_true, List.append_nil]
      exact htakes'
  · have hsaid : c.said (ds ++ [.got c.receiver (some text) v]) = brought ++ (w.net.pcb c.source).unsent.toList := by
      rw [← hn.said_eq]
      unfold Channel.said
      rw [wrote_append, wrote_got, List.append_nil]
    rw [hsaid, accepted_append, htakes.brought_eq, List.append_assoc]
    obtain ⟨rest, hrest⟩ := hprefix
    cases v with
    | ok u =>
      rw [accepted_accepted, ← hrest, List.append_assoc]
      exact (List.prefix_append_right_inj _).2 (List.prefix_append _ _)
    | error f =>
      rw [accepted_refused]
      exact (List.prefix_append_right_inj _).2 (List.nil_prefix)
  · exact fun _ _ _ => htold

/-- **The receiver has heard of the end of the stream**; it has accepted all that was said. -/
theorem Has.parted (v : Outcome) (h : c.Has ph [none] ds (c.said ds) w) :
    c.Has ph [] (ds ++ [.got c.receiver none v]) (c.said ds) w := by
  obtain ⟨brought, fin, P, hn, ha, hh⟩ := h
  have htakes := ha.takes
  have hout := htakes.out
  rw [List.singleton_append] at htakes hout
  generalize hqueue : w.stack.offers c.receiver = out at hout
  generalize htold : ended c.receiver ds = told at hout
  cases hout with
  | farewell hi hd hf he =>
    have hall : accepted c.receiver ds = c.said ds := by
      rw [htakes.fin.symm.trans hf] at hn
      rw [hn.all_brought.2, htakes.brought_eq, he, List.append_nil]
    refine ⟨brought, fin, P, hn, ⟨ha.around, ?_, ha.kept.append ?_ (fun _ _ _ => htold) fun _ _ => hall⟩, hh⟩
    · rw [accepted_append, refused_append, ended_append, accepted_end, refused_end, ended_end, hqueue, List.append_nil,
        Bool.or_false, Bool.or_true]
      exact ⟨htakes.pcb, htakes.rx, htakes.notShut, htakes.brought_eq, htakes.fin, .finished hi hd hf he, htakes.eager⟩
    · rw [accepted_append, accepted_end, List.append_nil, hall]
      unfold Channel.said
      rw [wrote_append]
      exact (List.prefix_append_right_inj _).2 (List.prefix_append _ _)

end

end Channel

end Stack

end Conduit
