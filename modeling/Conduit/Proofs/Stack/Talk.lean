import Conduit.Proofs.Loopback.Wired
import Conduit.Proofs.Stack.Receivers
import Conduit.Proofs.Tls.Faces

/-!
# Two connections that talk

Two TLS connections in one stack, over the two ends of one connection of the loopback net.

* `Errand`: the one event that waits, and what is held meanwhile.
* `Talk`: the state of both; `said` and `told` are what the one and the other have written.
* `Talk.drain_ends`: working off the queue leads from one such state to the next, where nothing waits.
-/

namespace Conduit

open Exec Loopback

namespace Stack

/-- What waits to happen at a site. -/
inductive Errand
  | idle
  /-- The endpoint has sent data, and the TLS layer is to learn of it. -/
  | lowSent (n : Nat)
  /-- Ciphertext is to be handed to the TLS layer. -/
  | lowRecv (text : Bytes)
  | highSent
  /-- Plaintext is to be handed to the application. -/
  | highRecv (text : Bytes)

namespace Errand

variable {H : Host}

/-- The event that waits. -/
def queue (x : Site) : Errand → List (Queued H)
  | .idle => []
  | .lowSent n => [⟨x.tcp, .sent n, .resolve⟩]
  | .lowRecv text => [⟨x.tcp, .recv text, .resolve⟩]
  | .highSent => [⟨x.tls, .sent 0, .resolve⟩]
  | .highRecv text => [⟨x.tls, .recv text, .resolve⟩]

/-- Ciphertext that the plain layer holds. -/
def held : Errand → Bytes
  | .lowRecv text => text
  | _ => []

/-- The TLS layer will be able to send. -/
def Due : Errand → Prop
  | .lowSent _ => True
  | _ => False

/-- What the plain layer is like. -/
def Below (g : Plain H.Pcb) : Errand → Prop
  | .lowRecv text => g.Offers text
  | _ => g.Rests

/-- What the session is like. -/
def Above (C : Tls.Coupling H.Engine) (s : Tls.Session H.Engine) : Errand → Prop
  | .highRecv text => s.Offers text ∧ s.passedUnrecved = text.length
  | _ => s.Rests C ∧ s.passedUnrecved = 0

end Errand

/-- All that is found at a site. -/
structure Seat (H : Host) where
  upper : Entry H
  lower : Entry H
  layer : Tls.Layer H.Source H.Engine
  plain : Plain H.Pcb
  session : Tls.Session H.Engine
  /-- The callback that receives. -/
  code : H.Code

/-- At the site `x` an established connection listens, and `ε` waits. -/
structure Seat.At {H : Host} (ear : Ear H) (C : Tls.Coupling H.Engine) (x : Site) (w : World H) (ε : Errand)
    (a : Seat H) : Prop where
  stands : x.Stands w a.upper a.lower a.layer a.plain
  established : a.layer.phase = .established
  opened : a.layer.rxState = .opened
  writable : a.layer.txClosed = false
  chunk : 0 < a.layer.config.options.rxChunkSize
  session : a.layer.session = some a.session
  recv : a.upper.callbacks.recv = some a.code
  listens : ear.listens a.code
  sent : ∀ c, a.upper.callbacks.sent = some c → ear.listens c
  below : ε.Below a.plain
  above : ε.Above C a.session

/-- Whether a report of sent data is pending for the endpoint of a site. -/
def Site.Pending {H : Host} (x : Site) (w : World H) : Prop := ∃ n, Action.sent x.pcb n ∈ w.net.actions

/-- The connections at `x` and `y` talk to each other; `ε` waits at `x`. What the one has said, the other has heard or
will hear. -/
structure Talk {H : Host} (b : Behaviour H) (ear : Ear H) (C : Tls.Coupling H.Engine) (x y : Site) (w : World H)
    (ε : Errand) (a c : Seat H) (said told : Bytes) : Prop where
  left : a.At ear C x w ε
  right : c.At ear C y w .idle
  apart : x.Apart y
  wired : Wired x.pcb y.pcb x.tcp y.tcp w.net
  faces : Tls.Faces b.engine C w.net.options (ε.Due ∨ x.Pending w) (y.Pending w) a.session c.session ε.held []
    (w.net.pcb x.pcb) (w.net.pcb y.pcb)
  said_eq : said = ear.heard c.code ++ Tls.toHear C a.session c.session [] (w.net.pcb x.pcb)
  told_eq : told = ear.heard a.code ++ Tls.toHear C c.session a.session ε.held (w.net.pcb y.pcb)
  window : C.largest ≤ w.net.options.window
  depth : w.stack.depth = 0

variable {H : Host} {b : Behaviour H} {ear : Ear H} {C : Tls.Coupling H.Engine} {x y : Site} {w w' : World H}
  {ε ε' : Errand} {a a' c : Seat H} {said said' told : Bytes} {k : Nat} {text : Bytes}

theorem Talk.symm (h : Talk b ear C x y w .idle a c said told) : Talk b ear C y x w .idle c a told said := by
  refine ⟨h.right, h.left, h.apart.symm, h.wired.symm, ?_, h.told_eq, h.said_eq, h.window, h.depth⟩
  exact h.faces.symm.mono .inr fun hd => hd.resolve_left id

/-- What happens at one end, seen from both. -/
theorem Talk.moved (h : Talk b ear C x y w ε a c said told) (hb : x.Beside w w')
    (hs : (w.net.pcb x.pcb).Served (w'.net.pcb x.pcb)) (ha : a'.At ear C x w' ε')
    (hf : Tls.Faces b.engine C w.net.options (ε'.Due ∨ x.Pending w) (y.Pending w) a'.session c.session ε'.held []
      (w'.net.pcb x.pcb) (w.net.pcb y.pcb))
    (hsaid : said' = ear.heard c.code ++ Tls.toHear C a'.session c.session [] (w'.net.pcb x.pcb))
    (htold : told = ear.heard a'.code ++ Tls.toHear C c.session a'.session ε'.held (w.net.pcb y.pcb)) :
    Talk b ear C x y w' ε' a' c said' told := by
  obtain ⟨q, hq⟩ := hb.net
  have hpcb : w'.net.pcb x.pcb = q := by rw [hq, Net.pcb_update_self h.wired.leftSize]
  have hother : w'.net.pcb y.pcb = w.net.pcb y.pcb := by rw [hq, Net.pcb_update_of_ne h.apart.endpoint.symm]
  have hjoins : q.Joins y.pcb x.tcp := by
    rw [← hpcb]
    obtain ⟨u, v, n, hserved⟩ := hs
    rw [hserved]
    exact ⟨h.wired.left.owner, h.wired.left.peer, h.wired.left.isOpen, h.wired.left.reads, h.wired.left.plan⟩
  have hright : c.At ear C y w' .idle := by
    have hr := h.right
    exact ⟨hr.stands.beside h.apart hb, hr.established, hr.opened, hr.writable, hr.chunk, hr.session, hr.recv,
      hr.listens, hr.sent, hr.below, hr.above⟩
  have hpend : ∀ z : Site, z.Pending w' ↔ z.Pending w := by
    intro z
    unfold Site.Pending
    rw [hb.actions]
  refine ⟨ha, hright, h.apart, ?_, ?_, ?_, ?_, ?_, hb.depth.trans h.depth⟩
  · rw [hq]
    exact h.wired.changed hjoins
  · simp only [hpend, hother]
    rw [hb.options]
    exact hf
  · exact hsaid
  · rw [hother]
    exact htold
  · rw [hb.options]
    exact h.window

/-- Nothing is seen of what happens elsewhere. -/
theorem Talk.same (h : Talk b ear C x y w ε a c said told) (hf : ∀ id, w'.stack.find? id = w.stack.find? id)
    (hd : w'.stack.depth = w.stack.depth) (hn : w'.net = w.net) : Talk b ear C x y w' ε a c said told := by
  have hstands : ∀ {z : Site} {e d l g}, z.Stands w e d l g → z.Stands w' e d l g := fun hs =>
    ⟨(hf _).trans hs.upper, (hf _).trans hs.lower, hs.secure, hs.plain, hs.inner, hs.uppermost, hs.outer, hs.pcb,
      by rw [hn]; exact hs.endpoint⟩
  have hat : ∀ {z : Site} {ε a}, Seat.At ear C z w ε a → a.At ear C z w' ε := fun ha =>
    ⟨hstands ha.stands, ha.established, ha.opened, ha.writable, ha.chunk, ha.session, ha.recv, ha.listens, ha.sent,
      ha.below, ha.above⟩
  have hpend : ∀ z : Site, z.Pending w' ↔ z.Pending w := by
    intro z
    unfold Site.Pending
    rw [hn]
  refine ⟨hat h.left, hat h.right, h.apart, ?_, ?_, ?_, ?_, ?_, hd.trans h.depth⟩
  · rw [hn]
    exact h.wired
  · rw [hn]
    exact h.faces.mono (Or.imp id (hpend x).2) (hpend y).2
  · rw [hn]
    exact h.said_eq
  · rw [hn]
    exact h.told_eq
  · rw [hn]
    exact h.window

/-! ## Errands -/

/-- The session has changed. -/
def Seat.secured (a : Seat H) (s : Tls.Session H.Engine) : Seat H :=
  { a with
    upper := { a.upper with layer := some (.secure (a.layer.holding s)) }
    layer := a.layer.holding s
    session := s }

/-- The plain layer has changed. -/
def Seat.plained (a : Seat H) (g : Plain H.Pcb) : Seat H :=
  { a with lower := { a.lower with layer := some (.plain g) }, plain := g }

theorem Seat.At.secured {s : Tls.Session H.Engine} {q : Pcb} {es : List Event} (ha : a.At ear C x w ε)
    (hx : x.tls ≠ x.tcp) (hw : Becomes x.tls (.secure (a.layer.holding s)) x.pcb w q es w') (hb : ε'.Below a.plain)
    (hs : ε'.Above C s) : (a.secured s).At ear C x w' ε' :=
  ⟨ha.stands.secured hx hw, ha.established, ha.opened, ha.writable, ha.chunk, rfl, ha.recv, ha.listens, ha.sent, hb, hs⟩

theorem Seat.At.plained {g : Plain H.Pcb} {q : Pcb} {es : List Event} (ha : a.At ear C x w ε) (hx : x.tls ≠ x.tcp)
    (hw : Becomes x.tcp (.plain g) x.pcb w q es w') (hg : g.pcb = a.plain.pcb) (hb : ε'.Below g)
    (hs : ε'.Above C a.session) : (a.plained g).At ear C x w' ε' :=
  ⟨ha.stands.plained hx hg hw, ha.established, ha.opened, ha.writable, ha.chunk, ha.session, ha.recv, ha.listens,
    ha.sent, hb, hs⟩

/-- What waits when the TLS layer has emitted `es`. -/
inductive Occasions : List Event → Errand → Prop
  | idle : Occasions [] .idle
  | sent : Occasions [.sent 0] .highSent
  | recv (text : Bytes) : Occasions [.recv text] (.highRecv text)

namespace Occasions

variable {es : List Event}

theorem queue (h : Occasions es ε) (x : Site) :
    (es.map fun e => (⟨x.tls, e, .resolve⟩ : Queued H)) = ε.queue x := by
  cases h <;> rfl

theorem held (h : Occasions es ε) : ε.held = [] := by
  cases h <;> rfl

theorem below (h : Occasions es ε) {g : Plain H.Pcb} (hg : g.Rests) : ε.Below g := by
  cases h <;> exact hg

end Occasions

/-- What waits when the TLS layer has looked for the next piece of plaintext. -/
theorem delivers_occasions {o : Loopback.Options} {f : H.Engine} {far near : Bytes} {due : Prop}
    {l l' : Tls.Layer H.Source H.Engine} {s : Tls.Session H.Engine} {p q : Pcb} {es : List Event}
    (hd : Tls.Delivers b.engine C o f far near 0 due l s p l' q es) (hx : l.rxState = .opened)
    (ho : ¬ C.parted s.engine (s.rx.toList ++ near)) (hz : s.passedUnrecved = 0) :
    ∃ s' ε', l' = l.holding s' ∧ Tls.Kept b.engine C o f far near 0 due s s' p q ∧ ε'.Above C s' ∧ Occasions es ε' := by
  cases hd with
  | rests hk hr hp _ => exact ⟨_, .idle, rfl, hk, ⟨hr, hp.trans hz⟩, .idle⟩
  | ended _ _ _ he =>
    rw [hx] at he
    cases he
  | parted _ hp _ _ => exact absurd hp ho
  | @offers s' q text hk hof hp =>
    refine ⟨_, .highRecv text, rfl, hk, ⟨hof, ?_⟩, .recv text⟩
    rw [hp, hz, Nat.zero_add]

/-- What becomes of a talk when something has happened at the site `x`. -/
def Talk.Goes (b : Behaviour H) (ear : Ear H) (C : Tls.Coupling H.Engine) (x y : Site) (c : Seat H)
    (said told : Bytes) (w' : World H) : Prop :=
  ∃ ε' a', Talk b ear C x y w' ε' a' c said told ∧ w'.stack.queue = ε'.queue x ∧ w'.stack.pumping = true

/-- The TLS layer learns that data was sent. -/
theorem Talk.lowSent_ends {n : Nat} {free : Handle → Exec H Unit} (h : Talk b ear C x y w (.lowSent n) a c said told)
    (hC : Tls.Couples b.engine C) (hpump : w.stack.pumping = true) (hq : w.stack.queue = []) :
    Ends (deliverToLayer b (exec b k) free x.tls x.tcp (.sent n)) w fun _ w' =>
      Talk.Goes b ear C x y c said told w' := by
  have ha := h.left
  unfold deliverToLayer
  rw [ends_bind]
  refine (ha.stands.secure_ends (m := .op (.lower (.sent n)))
    (P := fun r l' q es => r = .ok () ∧ ∃ s', l' = a.layer.holding s' ∧
      Tls.Kept b.engine C w.net.options c.session.engine (c.session.rx.toList ++ [])
        ([] ++ (w.net.pcb y.pcb).unsent.toList ++ C.out c.session.engine) 0 False a.session s' (w.net.pcb x.pcb) q ∧
      a.session.Abides b.engine C s' ∧ (es = [] ∨ es = [.sent 0])) h.apart.left
    (Tls.sent_fares h.faces.left hC ha.session fun s' q es hk hs hes => ⟨rfl, s', rfl, hk, hs, hes⟩)).mono ?_
  rintro r w' ⟨r', l', q, es, rfl, ⟨rfl, s', rfl, hk, hs, hes⟩, hw⟩
  show Ends (pure ()) w' _
  rw [ends_pure]
  -- the application is told only if it has written something before
  obtain ⟨ε', hf⟩ : ∃ ε', Occasions es ε' ∧ ε'.Above C s' := by
    have hrests : s'.Rests C ∧ s'.passedUnrecved = 0 := ⟨hs.rests ha.above.1, hs.passedUnrecved.trans ha.above.2⟩
    rcases hes with rfl | rfl
    · exact ⟨.idle, .idle, hrests⟩
    · exact ⟨.highSent, .sent, hrests⟩
  have hpcb := hw.pcb ha.stands.endpoint
  obtain ⟨hfaces, hsaid, htold⟩ := h.faces.left_kept hC
    (hk.mono (False.elim : False → ε'.Due ∨ x.Pending w))
  refine ⟨ε', a.secured s', h.moved (Site.beside_of_becomes hw (.inl rfl)) ?_ (ha.secured h.apart.left hw
    (hf.1.below ha.below) hf.2) ?_ ?_ ?_, ?_, hw.alike.pumping.trans hpump⟩
  · rw [hpcb]
    exact hk.served
  · rw [hpcb, hf.1.held]
    exact hfaces
  · rw [hpcb, h.said_eq]
    exact congrArg _ hsaid.symm
  · rw [hf.1.held, h.told_eq]
    exact congrArg _ htold.symm
  · rw [hw.queue, hq, List.nil_append, hf.1.queue]

/-- Once the TLS layer has ciphertext, the plain layer drops it. -/
theorem settleRecv_ends {free : Handle → Exec H Unit} {e d : Entry H} {l : Tls.Layer H.Source H.Engine}
    {g : Plain H.Pcb} (hs : x.Stands w e d l g) (hx : x.tls ≠ x.tcp) (hg : g.Offers text) :
    Ends (settleRecv b (exec b k) free x.tcp (.ok ())) w fun _ w' =>
      ∃ g', g'.Rests ∧ g'.pcb = g.pcb ∧ x.Stands w' e { d with layer := some (.plain g') } l g' ∧
        Becomes x.tcp (.plain g') x.pcb w (w.net.pcb x.pcb) [] w' := by
  obtain ⟨g', hstep, hrests, hpcb⟩ := hg.step_settled x.tcp
  unfold settleRecv
  rw [ends_bind]
  refine (plain_ends (i := x.pcb) hs.lower hs.plain hstep (by simp)).mono ?_
  rintro r w' ⟨-, hw⟩
  rw [ends_pure]
  exact ⟨g', hrests, hpcb, hs.plained hx hpcb hw, hw⟩

/-- The TLS layer gets ciphertext. -/
theorem Talk.lowRecv_ends {free : Handle → Exec H Unit} (h : Talk b ear C x y w (.lowRecv text) a c said told)
    (hC : Tls.Couples b.engine C) (hpump : w.stack.pumping = true) (hq : w.stack.queue = []) :
    Ends (deliverToLayer b (exec b k) free x.tls x.tcp (.recv text)) w fun _ w' =>
      Talk.Goes b ear C x y c said told w' := by
  have ha := h.left
  obtain ⟨hrests, hzero⟩ := ha.above
  -- the session once the ciphertext has arrived, and what comes behind it
  let s : Tls.Session H.Engine := { a.session with rx := a.session.rx.push text }
  let near : Bytes := (w.net.pcb y.pcb).unsent.toList ++ C.out c.session.engine
  have hrx : s.rx.toList ++ near =
      a.session.rx.toList ++ (text ++ (w.net.pcb y.pcb).unsent.toList ++ C.out c.session.engine) := by
    show (a.session.rx.push text).toList ++ _ = _
    rw [Segments.toList_push]
    simp only [near, List.append_assoc]
  have hc : Tls.Carries b.engine C w.net.options c.session.engine (c.session.rx.toList ++ []) (text ++ near)
      (0 + text.length) (x.Pending w) a.session (w.net.pcb x.pcb) := by
    have hl := h.faces.left.mono fun hd => (hd.resolve_left id : x.Pending w)
    rw [List.append_assoc, ← Nat.zero_add (List.length _)] at hl
    exact hl
  have hopen : ¬ C.parted s.engine (s.rx.toList ++ near) := by
    have := h.faces.rightOpen
    rw [Tls.going_eq] at this
    rw [hrx]
    exact this
  unfold deliverToLayer
  rw [ends_bind]
  refine (ha.stands.secure_ends (m := .op (.lower (.recv text)))
    (P := fun r l' q es => r = .ok () ∧ Tls.Delivers b.engine C w.net.options c.session.engine
      (c.session.rx.toList ++ []) near 0 (x.Pending w) (a.layer.holding s) s (w.net.pcb x.pcb) l' q es) h.apart.left
    (Tls.lowerData_fares hc hC ha.chunk ha.established (by rw [ha.opened]; simp) ha.session hrests.inFlight hrests.rxApp
      fun l' q es hd => ⟨rfl, hd⟩)).mono ?_
  rintro r w₁ ⟨r', l', q, es, rfl, ⟨rfl, hd⟩, hw⟩
  obtain ⟨s', ε', rfl, hk, habove, hf⟩ := delivers_occasions hd ha.opened hopen hzero
  have hpcb := hw.pcb ha.stands.endpoint
  -- the layer takes all of it, so the plain layer has nothing left to hold
  show Ends (settleRecv b (exec b k) free x.tcp (.ok ())) w₁ _
  have hs₁ := ha.stands.secured h.apart.left hw
  refine (settleRecv_ends hs₁ h.apart.left ha.below).mono ?_
  rintro - w' ⟨g, hg, hgp, hs', hw'⟩
  have hpcb' : w'.net.pcb x.pcb = q := (hw'.pcb hs₁.endpoint).trans hpcb
  have hat : ((a.secured s').plained g).At ear C x w' ε' :=
    ⟨hs', ha.established, ha.opened, ha.writable, ha.chunk, rfl, ha.recv, ha.listens, ha.sent, hf.below hg, habove⟩
  have hfaces : Tls.Faces b.engine C w.net.options (ε'.Due ∨ x.Pending w) (y.Pending w) s' c.session [] []
      q (w.net.pcb y.pcb) := by
    refine (h.faces.left_carries hC (hk.carries.mono .inr) ?_ ?_)
    · rw [hk.going]
      exact h.faces.leftOpen
    · rw [Tls.going_eq]
      exact fun hp => hopen (hk.parted.1 hp)
  refine ⟨ε', (a.secured s').plained g, h.moved ((Site.beside_of_becomes hw (.inl rfl)).trans
    (Site.beside_of_becomes hw' (.inr rfl))) ?_ hat ?_ ?_ ?_, ?_,
    (hw'.alike.pumping.trans hw.alike.pumping).trans hpump⟩
  · rw [hpcb']
    exact hk.served
  · rw [hpcb', hf.held]
    exact hfaces
  · rw [hpcb', h.said_eq]
    refine congrArg _ ?_
    unfold Tls.toHear
    rw [show ((a.secured s').plained g).session = s' from rfl, hk.going]
    rfl
  · rw [hf.held, h.told_eq, ← Tls.coming_eq, ← Tls.coming_eq]
    refine congrArg _ ?_
    show C.coming _ a.session = C.coming near s'
    rw [hk.coming]
    show a.session.rxApp.toList ++ C.plain _ _ = a.session.rxApp.toList ++ C.plain _ _
    rw [hrx]
    rfl
  · rw [hw'.queue, hw.queue, hq, List.nil_append]
    exact (List.append_nil _).trans (hf.queue x)

/-- The application learns that it may send again. -/
theorem Talk.highSent_ends {free : Handle → Exec H Unit} (h : Talk b ear C x y w .highSent a c said told)
    (hC : Tls.Couples b.engine C) (hb : Receives b ear) (hpump : w.stack.pumping = true) (hq : w.stack.queue = []) :
    Ends (deliverToApp b (exec b k) free x.tls (.sent 0)) w fun _ w' => Talk.Goes b ear C x y c said told w' := by
  have ha := h.left
  unfold deliverToApp
  rw [ends_bind]
  cases hsent : a.upper.callbacks.sent with
  | none =>
    -- nobody wants to know
    have hget : a.upper.callbacks.get .sent = none := hsent
    unfold callback
    simp only [ends_bind, ends_lookup, ha.stands.upper, hget, ends_pure]
    exact ⟨.idle, a, h.moved (.refl x w) (.refl _) ⟨ha.stands, ha.established, ha.opened, ha.writable, ha.chunk,
      ha.session, ha.recv, ha.listens, ha.sent, ha.below, ha.above⟩ h.faces h.said_eq h.told_eq, hq, hpump⟩
  | some code =>
    -- the callback may acknowledge what it likes; nothing is owed to the layer any more
    have hget : a.upper.callbacks.get .sent = some code := hsent
    refine (callback_ends hget ha.stands h.apart.left (hb.sent x.tls 0 (ha.sent code hsent)) hpump ha.established
      ha.session h.faces.left (Nat.le_of_eq ha.above.2)).mono ?_
    rintro r w' ⟨code', e', hlisten, hk, hs, hcb, hbeside, hqueue⟩
    rw [ends_pure]
    have hat : ({ a.secured { a.session with passedUnrecved := 0 } with upper := e' } : Seat H).At ear C x w' .idle := by
      refine ⟨hs, ha.established, ha.opened, ha.writable, ha.chunk, rfl, ?_, ha.listens, ?_, ha.below, ?_⟩
      · show e'.callbacks.recv = some a.code
        rw [hcb]
        exact ha.recv
      · intro c₁ hc₁
        rw [show ({ a.secured _ with upper := e' } : Seat H).upper = e' from rfl, hcb] at hc₁
        cases hc₁
        exact hlisten
      · exact ⟨⟨ha.above.1.inFlight, ha.above.1.rxApp, ha.above.1.bytes, ha.above.1.waits⟩, rfl⟩
    obtain ⟨hfaces, hsaid, htold⟩ := h.faces.left_kept hC hk
    refine ⟨.idle, _, h.moved hbeside hk.served hat hfaces ?_ ?_, by rw [hqueue, hq]; rfl, hbeside.pumping.trans hpump⟩
    · rw [h.said_eq]
      exact congrArg _ hsaid.symm
    · rw [h.told_eq]
      exact congrArg _ htold.symm

/-- The application gets plaintext. -/
theorem Talk.highRecv_ends {free : Handle → Exec H Unit} (h : Talk b ear C x y w (.highRecv text) a c said told)
    (hC : Tls.Couples b.engine C) (hb : Receives b ear) (hpump : w.stack.pumping = true) (hq : w.stack.queue = []) :
    Ends (deliverToApp b (exec b k) free x.tls (.recv text)) w fun _ w' => Talk.Goes b ear C x y c said told w' := by
  have ha := h.left
  obtain ⟨hoffers, hcount⟩ := ha.above
  have hget : a.upper.callbacks.get .recv = some a.code := ha.recv
  unfold deliverToApp
  rw [ends_bind]
  refine (callback_ends hget ha.stands h.apart.left (hb.recv x.tls text ha.listens) hpump ha.established ha.session
    h.faces.left (Nat.le_of_eq hcount)).mono ?_
  rintro r w₁ ⟨code, e', ⟨hr, hlisten, hheard⟩, hk₁, hs₁, hcb, hbeside, hqueue⟩
  have hr' : r = .ok () := hr
  subst hr'
  obtain ⟨hfaces₁, hsaid₁, htold₁⟩ := h.faces.left_kept hC hk₁
  -- the application has acknowledged it, and the verdict is handed back
  unfold settleRecv
  rw [ends_bind]
  let far : Bytes := c.session.rx.toList ++ []
  let near : Bytes := (w.net.pcb y.pcb).unsent.toList ++ C.out c.session.engine
  have hc : Tls.Carries b.engine C w₁.net.options c.session.engine far near 0 (x.Pending w)
      { a.session with passedUnrecved := 0 } (w₁.net.pcb x.pcb) := by
    rw [hbeside.options]
    exact hk₁.carries.mono fun hd => hd.resolve_left id
  refine (hs₁.secure_ends (m := .settled (.ok ()))
    (P := fun _ l' q es => ∃ s' ε', l' = a.layer.holding s' ∧
      Tls.Carries b.engine C w.net.options c.session.engine far near 0 (x.Pending w) s' q ∧
      (w₁.net.pcb x.pcb).Served q ∧ C.going far s' q = C.going far a.session (w.net.pcb x.pcb) ∧
      C.coming near a.session = text ++ C.coming near s' ∧ ¬ C.parted s'.engine (s'.rx.toList ++ near) ∧
      ε'.Above C s' ∧ Occasions es ε') h.apart.left ?_).mono ?_
  · refine Tls.settle_fares (l := a.layer.holding _) hc hC ha.chunk ha.established ?_ rfl
      ⟨hoffers.nonempty, hoffers.inFlight, hoffers.rxApp⟩ ?_
    · show a.layer.rxState ≠ .closed
      rw [ha.opened]
      simp
    · intro s₁ hcome hzero hgo hpart l' q es hd
      have hopen : ¬ C.parted s₁.engine (s₁.rx.toList ++ near) := by
        have := hfaces₁.rightOpen
        rw [Tls.going_eq] at this
        exact fun hp => this (hpart.1 hp)
      rw [hbeside.options] at hd
      obtain ⟨s', ε', rfl, hk, habove, hf⟩ := delivers_occasions hd ha.opened hopen hzero
      exact ⟨s', ε', rfl, hk.carries, hk.served, (hk.going.trans hgo).trans hk₁.going,
        by rw [hk.coming]; exact hcome, fun hp => hopen (hk.parted.1 hp), habove, hf⟩
  · rintro r w' ⟨-, l', q, es, rfl, ⟨s', ε', rfl, hc', hserved, hgo, hcome, hopen, habove, hf⟩, hw⟩
    rw [ends_pure]
    have hpcb := hw.pcb hs₁.endpoint
    have hat : ({ a.secured s' with
        upper := { e' with layer := some (.secure (a.layer.holding s')) }, code := code } : Seat H).At ear C x w' ε' := by
      refine ⟨hs₁.secured h.apart.left hw, ha.established, ha.opened, ha.writable, ha.chunk, rfl, ?_, hlisten, ?_,
        hf.below ha.below, habove⟩
      · show e'.callbacks.recv = some code
        rw [hcb]
        rfl
      · intro c₁ hc₁
        refine ha.sent c₁ ?_
        change e'.callbacks.sent = some c₁ at hc₁
        rw [hcb] at hc₁
        exact hc₁
    have hfaces : Tls.Faces b.engine C w.net.options (ε'.Due ∨ x.Pending w) (y.Pending w) s' c.session [] [] q
        (w.net.pcb y.pcb) := by
      refine h.faces.left_carries hC (hc'.mono .inr) ?_ ?_
      · rw [hgo]
        exact h.faces.leftOpen
      · rw [Tls.going_eq]
        exact hopen
    refine ⟨ε', _, h.moved (hbeside.trans (Site.beside_of_becomes hw (.inl rfl))) ?_ hat ?_ ?_ ?_, ?_,
      (hw.alike.pumping.trans hbeside.pumping).trans hpump⟩
    · rw [hpcb]
      exact hk₁.served.trans hserved
    · rw [hpcb, hf.held]
      exact hfaces
    · rw [hpcb, h.said_eq]
      unfold Tls.toHear
      exact congrArg (fun z => _ ++ (_ ++ C.plain _ z)) hgo.symm
    · rw [hf.held, h.told_eq]
      show ear.heard a.code ++ _ = ear.heard code ++ _
      rw [show ear.heard code = ear.heard a.code ++ text from hheard, List.append_assoc, ← Tls.coming_eq, ← Tls.coming_eq]
      exact congrArg _ hcome
    · rw [hw.queue, hqueue, hq, List.nil_append]
      exact hf.queue x

/-! ## Working off the queue -/

theorem Talk.deliver_ends {free : Handle → Exec H Unit} {q : Queued H} (h : Talk b ear C x y w ε a c said told)
    (hC : Tls.Couples b.engine C) (hb : Receives b ear) (hpump : w.stack.pumping = true) (hq : w.stack.queue = [])
    (hε : ε.queue x = [q]) :
    Ends (deliver b (exec b k) free q) w fun _ w' => Talk.Goes b ear C x y c said told w' := by
  have hs := h.left.stands
  cases ε with
  | idle => cases hε
  | lowSent n =>
    cases hε
    unfold deliver
    simp only [ends_bind, ends_lookup, hs.lower, hs.outer]
    exact h.lowSent_ends hC hpump hq
  | lowRecv text =>
    cases hε
    unfold deliver
    simp only [ends_bind, ends_lookup, hs.lower, hs.outer]
    exact h.lowRecv_ends hC hpump hq
  | highSent =>
    cases hε
    unfold deliver
    simp only [ends_bind, ends_lookup, hs.upper, hs.uppermost]
    exact h.highSent_ends hC hb hpump hq
  | highRecv text =>
    cases hε
    unfold deliver
    simp only [ends_bind, ends_lookup, hs.upper, hs.uppermost]
    exact h.highRecv_ends hC hb hpump hq

/-- **Working off the queue**: one errand leads to the next, until none waits. -/
theorem Talk.drain_ends {free : Handle → Exec H Unit} {m : Nat} (h : Talk b ear C x y w ε a c said told)
    (hC : Tls.Couples b.engine C) (hb : Receives b ear) (hpump : w.stack.pumping = true)
    (hq : w.stack.queue = ε.queue x) :
    Ends (drain b (exec b k) free m) w fun _ w' =>
      w'.stack.queue = [] ∧ ∃ a', Talk b ear C x y w' .idle a' c said told := by
  induction m generalizing w ε a with
  | zero => exact ends_throw _
  | succ m ih =>
    unfold drain
    rw [ends_bind, ends_getSlots]
    cases hε : ε.queue x with
    | nil =>
      -- the queue is empty only when nothing waits
      have hidle : ε = .idle := by
        cases ε <;> first | rfl | cases hε
      subst hidle
      rw [hε] at hq
      simp only [hq, ends_pure]
      exact ⟨trivial, a, h⟩
    | cons q rest =>
      -- no errand is more than one event, and what it causes is one errand again
      have hrest : rest = [] := by
        cases ε <;> cases hε <;> rfl
      subst hrest
      rw [hε] at hq
      simp only [hq, ends_bind, ends_modifySlots]
      have h₁ : Talk b ear C x y { w with stack := { w.stack with queue := [] } } ε a c said told :=
        h.same (fun _ => rfl) rfl rfl
      refine (h₁.deliver_ends hC hb hpump rfl hε).mono ?_
      rintro - w₁ ⟨ε', a', h', hq', hpump'⟩
      exact ih h' hpump' hq'

/-- Two connections that talk, while nothing waits in the stack. -/
def Calm (b : Behaviour H) (ear : Ear H) (C : Tls.Coupling H.Engine) (x y : Site) (said told : Bytes) (w : World H) :
    Prop :=
  ∃ a c, Talk b ear C x y w .idle a c said told ∧ w.stack.queue = [] ∧ w.stack.pumping = false

theorem Calm.symm (h : Calm b ear C x y said told w) : Calm b ear C y x told said w := by
  obtain ⟨a, c, h, hq, hp⟩ := h
  exact ⟨c, a, h.symm, hq, hp⟩

theorem Talk.pump_ends {free : Handle → Exec H Unit} {m : Nat} (h : Talk b ear C x y w ε a c said told)
    (hC : Tls.Couples b.engine C) (hb : Receives b ear) (hpump : w.stack.pumping = false)
    (hq : w.stack.queue = ε.queue x) :
    Ends (pump b (exec b k) free m) w fun _ w' => Calm b ear C x y said told w' := by
  have hidle : ¬ ((decide (0 < w.stack.depth) || w.stack.pumping) = true) := by
    simp [h.depth, hpump]
  unfold pump
  simp only [ends_bind, ends_getSlots, hidle, if_false, ends_modifySlots, Bool.false_eq_true]
  have h₁ : Talk b ear C x y { w with stack := { w.stack with pumping := true } } ε a c said told :=
    h.same (fun _ => rfl) rfl rfl
  refine (h₁.drain_ends hC hb rfl hq).mono ?_
  rintro - w₁ ⟨hq', a', h'⟩
  exact ⟨a', c, h'.same (fun _ => rfl) rfl rfl, hq', rfl⟩

end Stack

end Conduit
