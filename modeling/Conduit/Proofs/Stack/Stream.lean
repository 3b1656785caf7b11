import Conduit.Proofs.Stack.Talk
import Conduit.Proofs.Tls.Pairs

/-!
# What two connections say to each other

Two TLS connections over the two ends of one connection of the loopback net; the applications write when they like and
accept all that comes.

* `Calm.begin`: how it can begin.
* `Chat`: writes at both ends and steps of the net, in any order.
* `Chat.calm`: each of them leads from one state of a talk to the next.
* `Chat.intact`: **what is heard is a prefix of what was said; when the net has settled, it is all of it.**
-/

namespace Conduit

open Exec Loopback

namespace Stack

variable {H : Host} {b : Behaviour H} {ear : Ear H} {C : Tls.Coupling H.Engine} {x y : Site} {w w' : World H}
  {said told : Bytes} {k : Nat}

/-! ## The beginning -/

/-- The connection at `x` has shaken hands and has heard nothing; nothing is held there. -/
structure Seat.Begins (ear : Ear H) (C : Tls.Coupling H.Engine) (x : Site) (w : World H) (a : Seat H) : Prop where
  stands : x.Stands w a.upper a.lower a.layer (Plain.ofPcb (.loopback x.pcb))
  plain : a.plain = Plain.ofPcb (.loopback x.pcb)
  established : a.layer.phase = .established
  opened : a.layer.rxState = .opened
  writable : a.layer.txClosed = false
  chunk : 0 < a.layer.config.options.rxChunkSize
  session : a.layer.session = some a.session
  fresh : a.session = .ofEngine a.session.engine
  out : C.out a.session.engine = []
  waits : C.waits a.session.engine []
  recv : a.upper.callbacks.recv = some a.code
  listens : ear.listens a.code
  heard : ear.heard a.code = []
  sent : ∀ c, a.upper.callbacks.sent = some c → ear.listens c
  unsent : (w.net.pcb x.pcb).unsent = .empty
  acked : (w.net.pcb x.pcb).acked = (w.net.pcb x.pcb).received

theorem Seat.Begins.at {a : Seat H} (h : a.Begins ear C x w) : a.At ear C x w .idle := by
  refine ⟨h.plain ▸ h.stands, h.established, h.opened, h.writable, h.chunk, h.session, h.recv, h.listens, h.sent,
    ?_, ?_⟩
  · rw [h.plain]
    exact ⟨⟨rfl, nofun⟩, rfl, rfl, rfl, rfl⟩
  · rw [h.fresh]
    exact ⟨⟨rfl, rfl, rfl, h.waits⟩, rfl⟩

/-- One of two that begin carries on. -/
theorem Seat.Begins.carries {a c : Seat H} {due : Prop} (h : a.Begins ear C x w) (h' : c.Begins ear C y w)
    (hC : Tls.Couples b.engine C) (hj : C.joined a.session.engine c.session.engine [] [])
    (ho : (w.net.pcb x.pcb).IsOpen) :
    Tls.Carries b.engine C w.net.options c.session.engine (c.session.rx.toList ++ [])
      ([] ++ (w.net.pcb y.pcb).unsent.toList ++ C.out c.session.engine) 0 due a.session (w.net.pcb x.pcb) := by
  obtain ⟨hbuffered, -, -⟩ := hC.waits (x := []) hj h.waits
  have hacked := h.acked
  rw [h'.unsent, h'.out, h.fresh, h'.fresh]
  refine ⟨⟨⟨rfl, nofun⟩, ⟨rfl, nofun⟩, nofun⟩, ?_, ho, ?_, fun hne => absurd h.out hne, by omega, by omega, ?_⟩
  · rw [h.unsent]
    exact ⟨rfl, nofun⟩
  · unfold Tls.Coupling.going
    rw [h.unsent]
    show C.joined _ _ ([] ++ [] ++ C.out a.session.engine) []
    rw [h.out]
    exact hj
  · show 0 + b.engine.buffered a.session.engine ≤ 0
    omega

/-- Nothing is on its way between two that begin. -/
theorem Seat.Begins.going {a c : Seat H} (h : a.Begins ear C x w) (h' : c.Begins ear C y w) :
    C.going (c.session.rx.toList ++ []) a.session (w.net.pcb x.pcb) = [] := by
  unfold Tls.Coupling.going
  rw [h.unsent, h.out, h'.fresh]
  rfl

/-- **Two connections that have shaken hands can begin to talk.** -/
theorem Calm.begin {a c : Seat H} (h : a.Begins ear C x w) (h' : c.Begins ear C y w) (hxy : x.Apart y)
    (hw : Wired x.pcb y.pcb x.tcp y.tcp w.net) (hC : Tls.Couples b.engine C)
    (hj : C.joined a.session.engine c.session.engine [] []) (hp : ¬ C.parted c.session.engine [])
    (hp' : ¬ C.parted a.session.engine []) (hwindow : C.largest ≤ w.net.options.window) (hd : w.stack.depth = 0)
    (hq : w.stack.queue = []) (hpump : w.stack.pumping = false) : Calm b ear C x y [] [] w := by
  have hgoing : C.going (c.session.rx.toList ++ []) a.session (w.net.pcb x.pcb) = [] := h.going h'
  have hgoing' : C.going (a.session.rx.toList ++ []) c.session (w.net.pcb y.pcb) = [] := h'.going h
  have hj' : C.joined c.session.engine a.session.engine [] [] := hC.symm hj
  refine ⟨a, c, ⟨h.at, h'.at, hxy, hw, ⟨h.carries h' hC hj hw.left.isOpen, h'.carries h hC hj' hw.right.isOpen, ?_, ?_⟩,
    ?_, ?_, hwindow, hd⟩, hq, hpump⟩
  · rw [hgoing]
    exact hp
  · rw [show Errand.held .idle = [] from rfl, hgoing']
    exact hp'
  · obtain ⟨-, -, hlast⟩ := hC.waits (x := []) hj' h'.waits
    unfold Tls.toHear
    rw [hgoing, h'.heard, (hlast rfl).2, h'.fresh]
    rfl
  · obtain ⟨-, -, hlast⟩ := hC.waits (x := []) hj h.waits
    unfold Tls.toHear
    rw [show Errand.held .idle = [] from rfl, hgoing', h.heard, (hlast rfl).2, h.fresh]
    rfl

/-! ## Writes -/

/-- What has been said once a write has been answered. -/
def saying (data : Bytes) : Outcome → Bytes
  | .ok () => data
  | .error _ => []

/-- **A write** takes all of the data or nothing of it. -/
theorem Calm.write_ends {data : Bytes} {f : WriteFlags} (h : Calm b ear C x y said told w)
    (hC : Tls.Couples b.engine C) (hb : Receives b ear) :
    Ends (exec b k (.ask x.tls (.write data f))) w fun r w' =>
      (r = .ok () ∨ r = .error .wouldBlock) ∧ Calm b ear C x y (said ++ saying data r) told w' := by
  obtain ⟨a, c, h, hq, hpump⟩ := h
  cases k with
  | zero => exact ends_throw _
  | succ k =>
    have ha := h.left
    let far : Bytes := c.session.rx.toList ++ []
    let near : Bytes := (w.net.pcb y.pcb).unsent.toList ++ C.out c.session.engine
    -- nothing is under way in the stack, so all that can be due is a report
    have hc : Tls.Carries b.engine C w.net.options c.session.engine far near 0 (x.Pending w) a.session
        (w.net.pcb x.pcb) := h.faces.left.mono fun hd => hd.resolve_left id
    show Ends (call b (exec b k) (freeEntry b (exec b k) k) k x.tls (.write data f)) w _
    unfold call
    rw [ends_bind]
    refine (ha.stands.secure_ends (m := .op (.write data f))
      (P := fun r l' q es => ∃ s', l' = a.layer.holding s' ∧ es = [] ∧
        Tls.Carries b.engine C w.net.options c.session.engine far near 0 (x.Pending w) s' q ∧
        (w.net.pcb x.pcb).Served q ∧ a.session.Abides b.engine C s' ∧
        Tls.Writes C c.session.engine data (C.going far a.session (w.net.pcb x.pcb)) (C.going far s' q) r) h.apart.left
      (Tls.write_fares hc hC ha.established ha.writable ha.session h.faces.leftOpen
        fun r s' q hc' hs hab hw => ⟨s', rfl, rfl, hc', hs, hab, hw⟩)).mono ?_
    rintro - w₁ ⟨r, l', q, es, rfl, ⟨s', rfl, rfl, hc', hserved, hab, hw⟩, hbec⟩
    have hpcb := hbec.pcb ha.stands.endpoint
    -- the peer can make of it what it could before, and the data if it was taken
    have hsaid : ¬ C.parted c.session.engine (C.going far s' q) ∧ (r = .ok () ∨ r = .error .wouldBlock) ∧
        C.plain c.session.engine (C.going far s' q) =
          C.plain c.session.engine (C.going far a.session (w.net.pcb x.pcb)) ++ saying data r := by
      cases hw with
      | taken hp hd => exact ⟨hd, .inl rfl, hp⟩
      | refused hg =>
        refine ⟨by rw [hg]; exact h.faces.leftOpen, .inr rfl, ?_⟩
        rw [hg]
        exact (List.append_nil _).symm
    have hopen : ¬ C.parted s'.engine (C.going (s'.rx.toList ++ []) c.session (w.net.pcb y.pcb)) := by
      have := h.faces.rightOpen
      rw [Tls.going_eq] at this ⊢
      exact fun hp => this (hab.parted.1 hp)
    have htalk : Talk b ear C x y w₁ .idle (a.secured s') c (said ++ saying data r) told := by
      refine h.moved (Site.beside_of_becomes hbec (.inl rfl)) ?_ (ha.secured h.apart.left hbec ha.below
        ⟨hab.rests ha.above.1, hab.passedUnrecved.trans ha.above.2⟩) ?_ ?_ ?_
      · rw [hpcb]
        exact hserved
      · rw [hpcb]
        exact h.faces.left_carries hC (hc'.mono .inr) hsaid.1 hopen
      · rw [hpcb, h.said_eq, List.append_assoc]
        refine congrArg _ ?_
        unfold Tls.toHear
        rw [List.append_assoc]
        exact congrArg _ hsaid.2.2.symm
      · rw [h.told_eq]
        refine congrArg _ ?_
        rw [← Tls.coming_eq, ← Tls.coming_eq]
        exact hab.coming.symm
    -- what the write has caused is delivered
    rw [ends_bind]
    refine (htalk.pump_ends hC hb (hbec.alike.pumping.trans hpump) ?_).mono ?_
    · rw [hbec.queue, hq]
      rfl
    · intro _ w₂ hcalm
      exact (ends_pure _).2 ⟨hsaid.2.1, hcalm⟩

/-! ## Steps of the net -/

/-- A report of sent data is on its way to the TLS layer. -/
theorem Talk.reported {a c : Seat H} {n : Nat} {rest : List Action} (h : Talk b ear C x y w .idle a c said told)
    (hr : w.net.actions = .sent x.pcb n :: rest) :
    Talk b ear C x y { w with net := { w.net with actions := rest } } (.lowSent n) a c said told := by
  have hat : ∀ {z : Site} {ε ε' : Errand} {a : Seat H}, a.At ear C z w ε → ε'.Below a.plain → ε'.Above C a.session →
      a.At ear C z { w with net := { w.net with actions := rest } } ε' := by
    intro z ε ε' a ha hb hs
    have st := ha.stands
    exact ⟨⟨st.upper, st.lower, st.secure, st.plain, st.inner, st.uppermost, st.outer, st.pcb, st.endpoint⟩,
      ha.established, ha.opened, ha.writable, ha.chunk, ha.session, ha.recv, ha.listens, ha.sent, hb, hs⟩
  refine ⟨hat h.left h.left.below h.left.above, hat h.right h.right.below h.right.above, h.apart, h.wired.settled hr,
    h.faces.mono (fun _ => .inl trivial) ?_, h.said_eq, h.told_eq, h.window, h.depth⟩
  rintro ⟨m, hm⟩
  rw [hr] at hm
  rcases List.mem_cons.1 hm with heq | hm
  · exact absurd (Action.sent.inj heq).1 h.apart.endpoint.symm
  · exact ⟨m, hm⟩

/-- Ciphertext has reached the plain layer. -/
theorem Talk.sent {a a' c : Seat H} {text : Bytes} {n : Net} (h : Talk b ear C x y w .idle a c said told)
    (hs : w.net.Sends y.pcb x.pcb text n) (ha : a'.At ear C x w' (.lowRecv text)) (hses : a'.session = a.session)
    (hcode : a'.code = a.code) (hf : ∀ id, id ≠ x.tls → id ≠ x.tcp → w'.stack.find? id = w.stack.find? id)
    (hd : w'.stack.depth = w.stack.depth) (hn : w'.net = n) : Talk b ear C x y w' (.lowRecv text) a' c said told := by
  subst hn
  obtain ⟨rest, plan, hu, hw, -, hy⟩ := hs.source
  obtain ⟨m, hx⟩ := hs.target
  have hright := h.right
  have st := hright.stands
  have hdue : y.Pending w' := by
    refine ⟨text.length, ?_⟩
    rw [hs.actions]
    exact List.mem_append_right _ (List.mem_singleton.2 rfl)
  have hpend : x.Pending w → x.Pending w' := by
    rintro ⟨k, hk⟩
    exact ⟨k, by rw [hs.actions]; exact List.mem_append_left _ hk⟩
  obtain ⟨hfaces, htold⟩ := h.faces.sent plan m hu hw hdue
  refine ⟨ha, ⟨⟨?_, ?_, st.secure, st.plain, st.inner, st.uppermost, st.outer, st.pcb, ?_⟩, hright.established,
    hright.opened, hright.writable, hright.chunk, hright.session, hright.recv, hright.listens, hright.sent, hright.below,
    hright.above⟩, h.apart, (h.wired.symm.sends hs).symm, ?_, ?_, ?_, ?_, hd.trans h.depth⟩
  · rw [hf _ h.apart.upper.symm h.apart.back.symm]
    exact st.upper
  · rw [hf _ h.apart.across.symm h.apart.lower.symm]
    exact st.lower
  · rw [hs.size]
    exact st.endpoint
  · rw [hs.options, hx, hy, hses]
    exact hfaces.mono (fun hd => .inr (hpend (hd.resolve_left id))) id
  · rw [hx, hses, h.said_eq]
    rfl
  · rw [hy, hses, hcode, h.told_eq]
    exact congrArg _ htold.symm
  · rw [hs.options]
    exact h.window

/-- An event from the net that the plain layer hands on. -/
theorem lower_ends {e d : Entry H} {l : Tls.Layer H.Source H.Engine} {g g' : Plain H.Pcb} {ev : Event}
    {P : World H → Prop} (hs : x.Stands w e d l g)
    (hm : Plain.step x.tcp (.op (.lower ev)) g = telling [ev] (.ok (), g')) (hev : ∀ f, ev ≠ .error f)
    (h : ∀ k w', Becomes x.tcp (.plain g') x.pcb w (w.net.pcb x.pcb) [ev] w' →
      Ends (pump b (exec b k) (freeEntry b (exec b k) k) k) w' fun _ => P) :
    Ends (dispatch b (exec b k) x.tcp (.event ev)) w fun r w' => r = .ok () ∧ P w' := by
  show Ends (exec b k (.ask x.tcp (.lower ev))) w _
  cases k with
  | zero => exact ends_throw _
  | succ k =>
    show Ends (note b _ >>= fun _ => call b (exec b k) (freeEntry b (exec b k) k) k x.tcp (.lower ev)) w _
    rw [ends_bind, ends_note]
    unfold call
    rw [ends_bind]
    refine Ends.mono (plain_ends (i := x.pcb) (hs.remembered _).lower hs.plain hm ?_) ?_
    · intro f hf
      exact hev f (List.mem_singleton.1 hf).symm
    · rintro r w' ⟨rfl, hw⟩
      rw [ends_bind]
      refine (h k w' ⟨hw.alike, hw.queue, hw.net⟩).mono ?_
      intro _ w'' hp
      exact (ends_pure _).2 ⟨rfl, hp⟩

/-- The report of data that the endpoint of `x` has sent. -/
theorem Talk.reported_ends {a c : Seat H} {n : Nat} {rest : List Action} (h : Talk b ear C x y w .idle a c said told)
    (hC : Tls.Couples b.engine C) (hb : Receives b ear) (hq : w.stack.queue = []) (hpump : w.stack.pumping = false)
    (hr : w.net.actions = .sent x.pcb n :: rest) :
    Ends (dispatch b (exec b k) x.tcp (.event (.sent n))) { w with net := { w.net with actions := rest } } fun r w' =>
      r = .ok () ∧ Calm b ear C x y said told w' := by
  have h₁ := h.reported hr
  refine lower_ends h₁.left.stands (Plain.step_sent n) (by simp) fun k w' hw => ?_
  have hpcb : w'.net.pcb x.pcb = w.net.pcb x.pcb := hw.pcb h.left.stands.endpoint
  have h₂ : Talk b ear C x y w' (.lowSent n) (a.plained a.plain) c said told := by
    refine h₁.moved (Site.beside_of_becomes hw (.inr rfl)) ?_ (h₁.left.plained h.apart.left hw rfl h.left.below
      h.left.above) ?_ ?_ h.told_eq
    · rw [hpcb]
      exact .refl _
    · rw [hpcb]
      exact h₁.faces
    · rw [hpcb]
      exact h.said_eq
  refine h₂.pump_ends hC hb (hw.alike.pumping.trans hpump) ?_
  rw [hw.queue]
  show w.stack.queue ++ _ = _
  rw [hq]
  rfl

/-- Data that the endpoint of `y` has sent to that of `x`. -/
theorem Talk.sent_ends {a c : Seat H} {text : Bytes} {n : Net} (h : Talk b ear C x y w .idle a c said told)
    (hC : Tls.Couples b.engine C) (hb : Receives b ear) (hq : w.stack.queue = []) (hpump : w.stack.pumping = false)
    (hs : w.net.Sends y.pcb x.pcb text n) :
    Ends (dispatch b (exec b k) x.tcp (.event (.recv text))) { w with net := n } fun r w' =>
      r = .ok () ∧ Calm b ear C x y said told w' := by
  have ha := h.left
  have st := ha.stands
  have hstands : x.Stands { w with net := n } a.upper a.lower a.layer a.plain :=
    ⟨st.upper, st.lower, st.secure, st.plain, st.inner, st.uppermost, st.outer, st.pcb, by rw [hs.size]; exact st.endpoint⟩
  obtain ⟨g, hm, hg, hgp⟩ := ha.below.step_recv x.tcp hs.nonempty
  refine lower_ends hstands hm (by simp) fun k w' hw => ?_
  have hat : (a.plained g).At ear C x w' (.lowRecv text) :=
    ⟨hstands.plained h.apart.left hgp hw, ha.established, ha.opened, ha.writable, ha.chunk, ha.session, ha.recv,
      ha.listens, ha.sent, hg, ha.above⟩
  have hbeside := Site.beside_of_becomes hw (.inr rfl)
  have h₂ : Talk b ear C x y w' (.lowRecv text) (a.plained g) c said told :=
    h.sent hs hat rfl rfl hbeside.find? hbeside.depth (by rw [hw.net]; exact Net.update_self _ _)
  refine h₂.pump_ends hC hb (hw.alike.pumping.trans hpump) ?_
  rw [hw.queue]
  show w.stack.queue ++ _ = _
  rw [hq]
  rfl

/-- A step of the net that reports an event of an endpoint. -/
theorem stepNet_ends {answers : Answers H} {n : Net} {ns : List Note} {i : Nat} {ev : Event} {id : Handle}
    {P : World H → Prop} (hn : w.net.next = some ⟨n, ns, (i, .event ev)⟩) (ho : (n.pcb i).owner = some id)
    (h : ∀ m, Ends (dispatch b answers id (.event ev)) { w with net := n, memory := m } fun r w' =>
      r = .ok () ∧ P w') :
    Ends (stepNet b answers) w fun more w' => more = true ∧ P w' := by
  unfold stepNet
  simp only [ends_bind, ends_get, hn, ends_modify]
  refine ends_notes _ fun m => ?_
  simp only [ho]
  rw [ends_bind]
  refine (h m).mono ?_
  rintro r w' ⟨rfl, hp⟩
  exact (ends_pure true).2 ⟨rfl, hp⟩

/-- **A step of the net** says nothing new; when there is none, nothing has changed. -/
theorem Calm.step_ends (h : Calm b ear C x y said told w) (hC : Tls.Couples b.engine C) (hb : Receives b ear) :
    Ends (exec b k .step) w fun more w' =>
      Calm b ear C x y said told w' ∧ (more = false → w' = w ∧ w.net.next = none) := by
  obtain ⟨a, c, h, hq, hpump⟩ := h
  cases k with
  | zero => exact ends_throw _
  | succ k =>
    show Ends (stepNet b (exec b k)) w _
    cases hn : w.net.next with
    | none =>
      unfold stepNet
      simp only [ends_bind, ends_get, hn, ends_pure]
      exact ⟨⟨a, c, h, hq, hpump⟩, fun _ => ⟨trivial, trivial⟩⟩
    | some r =>
      have hm : ∀ m, Talk b ear C x y { w with memory := m } .idle a c said told :=
        fun m => h.same (fun _ => rfl) rfl rfl
      have hdone : ∀ more w', more = true ∧ Calm b ear C x y said told w' →
          Calm b ear C x y said told w' ∧ (more = false → w' = w ∧ some r = none) := by
        rintro more w' ⟨rfl, hcalm⟩
        exact ⟨hcalm, fun hf => absurd hf (by simp)⟩
      refine Ends.mono ?_ hdone
      -- the net reports what one of the two endpoints has sent, or lets one send to the other
      cases h.wired.next_cases h.faces.left.unsent h.faces.right.unsent hn with
      | left hr => exact stepNet_ends hn h.wired.left.owner fun m => (hm m).reported_ends hC hb hq hpump hr
      | right hr =>
        refine stepNet_ends hn h.wired.right.owner fun m => ?_
        refine ((hm m).symm.reported_ends hC hb hq hpump hr).mono ?_
        rintro r w' ⟨hr, hcalm⟩
        exact ⟨hr, hcalm.symm⟩
      | there hs =>
        have hown := (h.wired.sends hs).right.owner
        refine stepNet_ends hn hown fun m => ?_
        refine ((hm m).symm.sent_ends hC hb hq hpump hs).mono ?_
        rintro r w' ⟨hr, hcalm⟩
        exact ⟨hr, hcalm.symm⟩
      | back hs =>
        have hown := (h.wired.symm.sends hs).right.owner
        exact stepNet_ends hn hown fun m => (hm m).sent_ends hC hb hq hpump hs

/-! ## Runs -/

/-- What the applications at `x` and `y` do, in any order: each writes when it likes, and the net takes steps. `said`
and `told` are what was written at the one and the other and was taken. -/
inductive Chat (b : Behaviour H) (x y : Site) (w : World H) : Bytes → Bytes → World H → Prop
  | nothing : Chat b x y w [] [] w
  | left {said told data : Bytes} {f : WriteFlags} {k : Nat} {r : Outcome} {w₁ w₂ : World H}
      (h : Chat b x y w said told w₁) (hr : exec b k (.ask x.tls (.write data f)) w₁ = .ok r w₂) :
      Chat b x y w (said ++ saying data r) told w₂
  | right {said told data : Bytes} {f : WriteFlags} {k : Nat} {r : Outcome} {w₁ w₂ : World H}
      (h : Chat b x y w said told w₁) (hr : exec b k (.ask y.tls (.write data f)) w₁ = .ok r w₂) :
      Chat b x y w said (told ++ saying data r) w₂
  | step {said told : Bytes} {k : Nat} {more : Bool} {w₁ w₂ : World H} (h : Chat b x y w said told w₁)
      (hr : exec b k .step w₁ = .ok more w₂) : Chat b x y w said told w₂

/-- What the applications or the net can do. -/
inductive Move
  | say (data : Bytes)
  | tell (data : Bytes)
  | step

/-- What was said and told, and what the world is like then. -/
structure Turnout (H : Host) where
  said : Bytes
  told : Bytes
  world : World H

/-- Does one thing, unless that halts. -/
def Move.make (b : Behaviour H) (k : Nat) (x y : Site) (s : Turnout H) : Move → Option (Turnout H)
  | .say data =>
    match exec b k (.ask x.tls (.write data .copy)) s.world with
    | .ok r w => some { s with said := s.said ++ saying data r, world := w }
    | .error .. => none
  | .tell data =>
    match exec b k (.ask y.tls (.write data .copy)) s.world with
    | .ok r w => some { s with told := s.told ++ saying data r, world := w }
    | .error .. => none
  | .step =>
    match exec b k .step s.world with
    | .ok _ w => some { s with world := w }
    | .error .. => none

theorem Move.make_chat {m : Move} {s s' : Turnout H} (h : Chat b x y w s.said s.told s.world)
    (hs : m.make b k x y s = some s') : Chat b x y w s'.said s'.told s'.world := by
  cases m with
  | say data =>
    dsimp only [make] at hs
    split at hs
    · rename_i hr
      cases hs
      exact .left h hr
    · cases hs
  | tell data =>
    dsimp only [make] at hs
    split at hs
    · rename_i hr
      cases hs
      exact .right h hr
    · cases hs
  | step =>
    dsimp only [make] at hs
    split at hs
    · rename_i hr
      cases hs
      exact .step h hr
    · cases hs

/-- Moves one after the other make a chat. -/
theorem Chat.of_moves {ms : List Move} {s s' : Turnout H} (h : Chat b x y w s.said s.told s.world)
    (hs : ms.foldlM (Move.make b k x y) s = some s') : Chat b x y w s'.said s'.told s'.world := by
  induction ms generalizing s with
  | nil =>
    cases hs
    exact h
  | cons m ms ih =>
    rw [List.foldlM_cons] at hs
    obtain ⟨s₁, hm, hs⟩ := Option.bind_eq_some_iff.1 hs
    exact ih (m.make_chat h hm) hs

/-- **Two that talk go on to do so**, whatever they say. -/
theorem Chat.calm {said' told' : Bytes} (h : Chat b x y w said' told' w') (hC : Tls.Couples b.engine C)
    (hb : Receives b ear) (h₀ : Calm b ear C x y said told w) :
    Calm b ear C x y (said ++ said') (told ++ told') w' := by
  induction h with
  | nothing =>
    rw [List.append_nil, List.append_nil]
    exact h₀
  | left _ hr ih =>
    rw [← List.append_assoc]
    exact (ih.write_ends hC hb _ _ hr).2
  | right _ hr ih =>
    rw [← List.append_assoc]
    exact (ih.symm.write_ends hC hb _ _ hr).2.symm
  | step _ hr ih => exact (ih.step_ends hC hb _ _ hr).1

/-- What the application at a site has received. -/
def Site.heard (y : Site) (ear : Ear H) (w : World H) : Bytes :=
  ((w.stack.find? y.tls).bind (·.callbacks.recv)).elim [] ear.heard

/-- The engine at a site has nothing to send. -/
def Site.Drained (x : Site) (b : Behaviour H) (w : World H) : Prop :=
  ∃ e l s, w.stack.find? x.tls = some e ∧ e.layer = some (.secure l) ∧ l.session = some s ∧
    b.engine.wantsWrite s.engine = false

theorem Seat.At.drained {a : Seat H} {ε : Errand} (ha : a.At ear C x w ε) (hC : Tls.Couples b.engine C)
    (ho : C.out a.session.engine = []) : x.Drained b w := by
  refine ⟨a.upper, a.layer, a.session, ha.stands.upper, ha.stands.secure, ha.session, ?_⟩
  rw [Bool.eq_false_iff]
  intro hw
  exact (hC.wantsWrite _).1 hw ho

theorem Seat.At.heard {a : Seat H} {ε : Errand} (ha : a.At ear C x w ε) : x.heard ear w = ear.heard a.code := by
  unfold Site.heard
  rw [ha.stands.upper, Option.bind_some, ha.recv]
  rfl

theorem Calm.heard (h : Calm b ear C x y said told w) : y.heard ear w <+: said := by
  obtain ⟨a, c, h, -, -⟩ := h
  rw [h.right.heard, h.said_eq]
  exact List.prefix_append _ _

/-- **When the net has settled**, all has been heard, and nothing is on its way. -/
theorem Calm.settled (h : Calm b ear C x y said told w) (hC : Tls.Couples b.engine C) (hn : w.net.next = none) :
    y.heard ear w = said ∧ x.Drained b w ∧ y.Drained b w ∧ (w.net.pcb y.pcb).acked = (w.net.pcb y.pcb).received := by
  obtain ⟨a, c, h, -, -⟩ := h
  have hoptions := Options.positive h.wired.options
  obtain ⟨hnone, hleft⟩ := h.wired.stuck h.faces.left.unsent hn
  obtain ⟨-, hright⟩ := h.wired.symm.stuck h.faces.right.unsent hn
  -- no report is on its way to either of them
  have hpend : ∀ z : Site, ¬ z.Pending w := by
    rintro z ⟨n, hm⟩
    rw [hnone] at hm
    cases hm
  have hdue : ¬ (Errand.idle.Due ∨ x.Pending w) := by
    rintro (hd | hd)
    · exact hd
    · exact hpend x hd
  obtain ⟨hout, -, -⟩ := h.faces.settled hC h.left.above.1 h.left.above.2 (hpend y) hoptions.2.1 h.window hright
  obtain ⟨hout', hnothing, hacked⟩ :=
    h.faces.symm.settled hC h.right.above.1 h.right.above.2 hdue hoptions.2.1 h.window hleft
  have hsaid : y.heard ear w = said := by
    rw [h.right.heard, h.said_eq, hnothing, List.append_nil]
  exact ⟨hsaid, h.left.drained hC hout', h.right.drained hC hout, hacked⟩

/-! ## Two that have met -/

/-- Applications that keep what they hear, over toy engines. -/
@[reducible] def parley : Host where
  Memory := Unit
  Code := Bytes
  Layer := Empty
  Pcb := Empty
  Engine := Tls.Toy.Engine
  Shared := Unit
  Source := Unit

/-- What they bring along. -/
def parleying : Behaviour parley where
  callback heard
    | .recv me (some data) => .ask (.ask me (.recved data.length)) fun _ => .done (heard ++ data, .ok ())
    | _ => .done (heard, .ok ())
  layer l := nomatch l
  layerName l := nomatch l
  pcb p := nomatch p
  note _ m := m
  engine := Tls.Toy.ops
  newEngine _ _ v := (.error .invalidArgument, v)

/-- Each callback listens, and keeps what it has heard. -/
def kept : Ear parley where
  listens _ := True
  heard code := code

theorem parleying_receives : Receives parleying kept where
  recv me text _ := .recved (by rw [Nat.sub_self]; exact .done ⟨rfl, trivial, rfl⟩)
  sent me n _ := .done trivial

/-- What is found at a site once the handshake is over. -/
def met (x : Site) (isServer : Bool) : Seat parley :=
  let session : Tls.Session Tls.Toy.Engine := .ofEngine { profile := { isServer }, done := true }
  let layer : Tls.Layer Unit Tls.Toy.Engine :=
    { config := { isServer, options := {}, source := () }, phase := .established, session := some session }
  let plain : Plain Empty := .ofPcb (.loopback x.pcb)
  { upper := { layer := some (.secure layer), name := "tls", inner := some x.tcp, callbacks := { recv := some [] } }
    lower := { layer := some (.plain plain), name := "tcp", outer := some x.tls }
    layer, plain, session
    code := [] }

/-- A client. -/
def caller : Site := ⟨⟨1, 0⟩, ⟨0, 0⟩, 0⟩

/-- A server. -/
def callee : Site := ⟨⟨3, 0⟩, ⟨2, 0⟩, 1⟩

/-- The one has called the other, and the handshake is over. -/
def meeting : World parley where
  stack := {
    slots := #[{ entry := some (met caller false).lower }, { entry := some (met caller false).upper },
      { entry := some (met callee true).lower }, { entry := some (met callee true).upper }]
    live := 4 }
  net := {
    options := { mss := 7, sndbuf := 10 }
    pcbs := #[{ owner := some caller.tcp, state := .established, peer := some 1 },
      { owner := some callee.tcp, state := .established, peer := some 0 }] }
  shared := ()
  memory := ()

/-- Records of as much plaintext as the header allows. -/
def pairing : Tls.Coupling Tls.Toy.Engine := Tls.Toy.coupling 8 16384

theorem met_begins {isServer : Bool} (hx : x.Stands meeting (met x isServer).upper (met x isServer).lower
      (met x isServer).layer (met x isServer).plain)
    (hp : meeting.net.pcb x.pcb = { owner := some x.tcp, state := .established, peer := some (1 - x.pcb) }) :
    (met x isServer).Begins kept pairing x meeting := by
  refine ⟨hx, rfl, rfl, rfl, rfl, Nat.succ_pos 1535, rfl, rfl, rfl, ⟨rfl, rfl⟩, rfl, trivial, rfl, nofun, ?_, ?_⟩
  · rw [hp]
    rfl
  · rw [hp]

theorem meeting_calm : Calm parleying kept pairing caller callee [] [] meeting := by
  have hcaller : (met caller false).Begins kept pairing caller meeting :=
    met_begins ⟨rfl, rfl, rfl, rfl, rfl, rfl, rfl, rfl, by decide⟩ rfl
  have hcallee : (met callee true).Begins kept pairing callee meeting :=
    met_begins ⟨rfl, rfl, rfl, rfl, rfl, rfl, rfl, rfl, by decide⟩ rfl
  have hapart : caller.Apart callee := ⟨by decide, by decide, by decide, by decide, by decide, by decide, by decide⟩
  have hable : ∀ isServer, Tls.Toy.Able 8 16384 { profile := { isServer }, done := true } :=
    fun _ => ⟨rfl, rfl, rfl, rfl, rfl, Nat.succ_pos 16383, Nat.le_refl 16384⟩
  have hflow : ∃ ds, Tls.Toy.Flow 8 16384 [] ds := ⟨[], rfl, nofun⟩
  refine Calm.begin hcaller hcallee hapart ?_ (Tls.Toy.couples (by decide)) ⟨hable _, hable _, hflow, hflow⟩ nofun nofun
    (by decide) rfl rfl rfl
  refine ⟨⟨rfl, rfl, ⟨.inl rfl, rfl⟩, rfl, nofun⟩, ⟨rfl, rfl, ⟨.inl rfl, rfl⟩, rfl, nofun⟩, by decide, by decide,
    by decide, fun m h₁ h₂ => .inl ?_, nofun, rfl⟩
  have hsize : 2 ≤ m := by
    have h₁ : m ≠ 0 := h₁
    have h₂ : m ≠ 1 := h₂
    omega
  rw [Net.pcb_of_size_le hsize]

/-- Says two things, of which the second finds no room, and lets the net take six steps. -/
def moves : List Move := [.say [104, 105], .say [104, 111], .step, .step, .step, .step, .step, .step]

/-! ## The stream -/

/-- **What is heard is what was said.** Two connections over the two ends of one connection of the loopback net have
completed their handshake, and said nothing yet. Whatever they say from then on, and however the net moves it, what has
been heard at `y` is a prefix of what was said at `x`, and no write that would have blocked is part of it. When the net
has settled, it is all of it; the engines have nothing left to send, and all that was received is acknowledged. -/
theorem Chat.intact (h : Chat b x y w said told w') (h₀ : Calm b ear C x y [] [] w) (hC : Tls.Couples b.engine C)
    (hb : Receives b ear) :
    y.heard ear w' <+: said ∧ ∀ k w'', exec b k .step w' = .ok false w'' →
      y.heard ear w' = said ∧ x.Drained b w' ∧ y.Drained b w' ∧
        (w'.net.pcb y.pcb).acked = (w'.net.pcb y.pcb).received := by
  have hcalm : Calm b ear C x y said told w' := h.calm hC hb h₀
  refine ⟨hcalm.heard, fun k w'' hstep => ?_⟩
  obtain ⟨-, hstop⟩ := hcalm.step_ends hC hb _ _ hstep
  exact hcalm.settled hC (hstop rfl).2

theorem Chat.intact_meeting : ∃ w', Chat parleying caller callee meeting [104, 105] [] w' ∧
    callee.heard kept w' = [104, 105] ∧ caller.Drained parleying w' ∧ callee.Drained parleying w' ∧
    (w'.net.pcb callee.pcb).acked = (w'.net.pcb callee.pcb).received := by
  have hrun : (moves.foldlM (Move.make parleying 20 caller callee) ⟨[], [], meeting⟩).any
      (fun s => s.said = [104, 105] && s.told = [] &&
        reaches (exec parleying 20 .step) s.world fun more _ => !more) = true := by decide +kernel
  obtain ⟨⟨said, told, w⟩, hs, hcloses⟩ := (Option.any_eq_true _ _).1 hrun
  simp only [Bool.and_eq_true, decide_eq_true_eq] at hcloses
  obtain ⟨⟨rfl, rfl⟩, hsettled⟩ := hcloses
  have hchat : Chat parleying caller callee meeting [104, 105] [] w := Chat.of_moves .nothing hs
  obtain ⟨more, w', hstep, hmore⟩ := exists_of_reaches hsettled
  cases more with
  | true => cases hmore
  | false =>
    have hintact := Chat.intact hchat meeting_calm (Tls.Toy.couples (by decide)) parleying_receives
    exact ⟨w, hchat, hintact.2 20 w' hstep⟩

end Stack

end Conduit
