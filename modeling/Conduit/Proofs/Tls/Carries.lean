import Conduit.Proofs.Tls.Fares
import Conduit.Proofs.Tls.Moves

/-!
# One end of a pair

What one end of a pair of TLS connections holds while the rest of the pair stands still, and what its methods do to it.

* `Carries`: the end is in step with its peer, owes below no more than it holds, and has nothing ready to send as long
  as there is room and no event on its way that lets it send.
* `flush_fares`, `deliver_fares`, `write_fares`: the functions of the layer keep this.
-/

namespace Conduit

open Loopback Layer Layer.Act

/-- What serving a layer changes of an endpoint. -/
def Loopback.Pcb.Served (p q : Pcb) : Prop :=
  ∃ u w a, q = { p with unsent := u, written := w, acked := a }

namespace Loopback.Pcb.Served

variable {p q r : Pcb}

theorem refl (p : Pcb) : p.Served p := ⟨_, _, _, rfl⟩

theorem trans (h : p.Served q) (h' : q.Served r) : p.Served r := by
  obtain ⟨u, w, a, rfl⟩ := h
  obtain ⟨u', w', a', rfl⟩ := h'
  exact ⟨_, _, _, rfl⟩

theorem heeded (p : Pcb) (n : Nat) : p.Served (p.heeded n) := ⟨_, _, _, rfl⟩

end Loopback.Pcb.Served

namespace Tls

variable {H : Host}

theorem Takes.served {o : Loopback.Options} {p q : Pcb} {ps : List Push} (h : Takes o p ps q) : p.Served q :=
  ⟨_, _, _, h.frame⟩

/-- What is on its way from an end, when `far` of it has left the endpoint. -/
def Coupling.going {E : Type} (C : Coupling E) (far : Bytes) (s : Session E) (p : Pcb) : Bytes :=
  far ++ p.unsent.toList ++ C.out s.engine

/-- The plaintext that is still to be taken at an end, when `near` is on its way behind what has arrived. -/
def Coupling.coming {E : Type} (C : Coupling E) (near : Bytes) (s : Session E) : Bytes :=
  s.rxApp.toList ++ C.plain s.engine (s.rx.toList ++ near)

/-- How one end carries on, with the engine `f` at the other end, `far` on its way beyond the endpoint and `near` on its
way here, of which `k` bytes have arrived below; `due` says whether an event is on its way that lets it send. -/
structure Carries (ops : EngineOps H.Engine H.Shared) (C : Coupling H.Engine) (o : Loopback.Options) (f : H.Engine)
    (far near : Bytes) (k : Nat) (due : Prop) (s : Session H.Engine) (p : Pcb) : Prop where
  sound : s.Sound
  unsent : p.unsent.WellFormed
  isOpen : p.IsOpen
  joined : C.joined s.engine f (C.going far s p) (s.rx.toList ++ near)
  moving : C.out s.engine ≠ [] → p.room o = 0 ∨ due
  acked : p.acked ≤ p.received
  owed : p.received ≤ p.acked + (s.rx.size + (s.bytesRead - s.bytesAppl) + s.passedUnrecved) + k
  held : s.bytesAppl + ops.buffered s.engine ≤ s.bytesRead

/-- An end has gone from `s` over `p` to `s'` over `q`, and sends and receives the same as before. -/
structure Kept (ops : EngineOps H.Engine H.Shared) (C : Coupling H.Engine) (o : Loopback.Options) (f : H.Engine)
    (far near : Bytes) (k : Nat) (due : Prop) (s s' : Session H.Engine) (p q : Pcb) : Prop where
  carries : Carries ops C o f far near k due s' q
  served : p.Served q
  going : C.going far s' q = C.going far s p
  coming : C.coming near s' = C.coming near s
  parted : C.parted s'.engine (s'.rx.toList ++ near) ↔ C.parted s.engine (s.rx.toList ++ near)

/-- A session whose receiving half is as it was. -/
structure Session.Abides (ops : EngineOps H.Engine H.Shared) (C : Coupling H.Engine) (s s' : Session H.Engine) :
    Prop where
  engine : C.Same ops s.engine s'.engine
  rx : s'.rx.toList = s.rx.toList
  rxApp : s'.rxApp = s.rxApp
  bytesRead : s'.bytesRead = s.bytesRead
  bytesAppl : s'.bytesAppl = s.bytesAppl
  passedUnrecved : s'.passedUnrecved = s.passedUnrecved
  inFlight : s'.inFlight = s.inFlight

variable {ops : EngineOps H.Engine H.Shared} {C : Coupling H.Engine} {o : Loopback.Options} {f : H.Engine}
  {far near : Bytes} {k : Nat} {due due' : Prop} {s s' s₁ : Session H.Engine} {p q : Pcb} {me low : Handle}
  {l : Layer H.Source H.Engine}

theorem Coupling.Same.trans {e e₁ e' : H.Engine} (h : C.Same ops e e₁) (h' : C.Same ops e₁ e') : C.Same ops e e' :=
  ⟨fun c => (h'.plain c).trans (h.plain c), fun c => (h'.parted c).trans (h.parted c),
    fun c hw => h'.waits c (h.waits c hw), Nat.le_trans h'.buffered h.buffered⟩

theorem Session.Abides.trans (h : s.Abides ops C s₁) (h' : s₁.Abides ops C s') : s.Abides ops C s' :=
  ⟨h.engine.trans h'.engine, h'.rx.trans h.rx, h'.rxApp.trans h.rxApp, h'.bytesRead.trans h.bytesRead,
    h'.bytesAppl.trans h.bytesAppl, h'.passedUnrecved.trans h.passedUnrecved, h'.inFlight.trans h.inFlight⟩

theorem Session.Abides.coming (h : s.Abides ops C s') : C.coming near s' = C.coming near s := by
  unfold Coupling.coming
  rw [h.rxApp, h.rx, h.engine.plain]

theorem Session.Abides.parted (h : s.Abides ops C s') :
    C.parted s'.engine (s'.rx.toList ++ near) ↔ C.parted s.engine (s.rx.toList ++ near) := by
  rw [h.rx]
  exact h.engine.parted _

theorem Carries.mono (h : Carries ops C o f far near k due s p) (hd : due → due') :
    Carries ops C o f far near k due' s p :=
  ⟨h.sound, h.unsent, h.isOpen, h.joined, fun ho => (h.moving ho).imp id hd, h.acked, h.owed, h.held⟩

theorem Kept.mono (h : Kept ops C o f far near k due s s' p q) (hd : due → due') :
    Kept ops C o f far near k due' s s' p q :=
  ⟨h.carries.mono hd, h.served, h.going, h.coming, h.parted⟩

/-- What is acknowledged below was owed. -/
theorem Carries.heeded {n : Nat} (h : Carries ops C o f far near k due s p)
    (hs : s' = { s with bytesRead := s'.bytesRead, bytesAppl := s'.bytesAppl, passedUnrecved := s'.passedUnrecved })
    (hn : s.bytesRead - s.bytesAppl + s.passedUnrecved ≤ s'.bytesRead - s'.bytesAppl + s'.passedUnrecved + n)
    (hh : s'.bytesAppl + ops.buffered s.engine ≤ s'.bytesRead) :
    Carries ops C o f far near k due s' (p.heeded n) := by
  have howed := h.owed
  have hsound := h.sound
  have hjoined := h.joined
  have hmoving := h.moving
  rw [hs]
  refine ⟨⟨hsound.rx, hsound.rxApp, hsound.inFlight⟩, h.unsent, h.isOpen, hjoined, hmoving, ?_, ?_, hh⟩
  · show min (p.acked + n) p.received ≤ p.received
    omega
  · show p.received ≤ min (p.acked + n) p.received + (s.rx.size + (s'.bytesRead - s'.bytesAppl) + s'.passedUnrecved) + k
    omega

/-! ## Sending -/

/-- What an engine pushes is still on its way. -/
theorem Takes.going {ps : List Push} {e : H.Engine} {rx : Segments} (hq : Takes o p ps q)
    (hout : C.out s.engine = sent ps ++ C.out e) : C.going far (s.worked e rx) q = C.going far s p := by
  show far ++ q.unsent.toList ++ C.out e = far ++ p.unsent.toList ++ C.out s.engine
  rw [hq.toList_eq, hout]
  simp only [List.append_assoc]

/-- An engine that has sent what it had ready, as far as there was room. -/
theorem Carries.flushed (hc : Carries ops C o f far near k due s p) (hC : Couples ops C) {ps : List Push}
    {e : H.Engine} {rx : Segments} {r : Except Fault Bool}
    (hw : Works (ops.flush s.engine) s.rx.toList ps rx.toList (e, r)) (hrx : rx.WellFormed) (hq : Takes o p ps q) :
    Carries ops C o f far near k False (s.worked e rx) q ∧ s.Abides ops C (s.worked e rx) ∧
      ∃ clear, r = .ok clear ∧ (clear = true → C.out e = []) := by
  obtain ⟨hsame, hjoined, hc', hout, hcramped, hclear⟩ := hC.flush hc.joined hw hq.taken
  have hsize : rx.size = s.rx.size := by rw [hrx.size_eq, hc.sound.rx.size_eq, hc']
  have hread : (s.worked e rx).bytesRead = s.bytesRead := by
    show s.bytesRead + (s.rx.size - rx.size) = s.bytesRead
    omega
  refine ⟨⟨hc.sound.worked hrx, hq.wellFormed hc.unsent, ?_, ?_, fun ho => .inl (hq.room_eq (hcramped ho)), ?_, ?_, ?_⟩,
    ⟨hsame, hc', rfl, hread, rfl, rfl, rfl⟩, hclear⟩
  · rw [hq.frame]
    exact hc.isOpen
  · rw [hq.going hout]
    show C.joined e f _ (rx.toList ++ near)
    rw [hc']
    exact hjoined
  · rw [hq.frame]
    exact hc.acked
  · have howed := hc.owed
    have hframe : q.received = p.received ∧ q.acked = p.acked := by
      rw [hq.frame]
      exact ⟨rfl, rfl⟩
    rw [hread, hframe.1, hframe.2]
    show _ ≤ _ + (rx.size + (s.bytesRead - s.bytesAppl) + s.passedUnrecved) + k
    rw [hsize]
    exact howed
  · rw [hread]
    show s.bytesAppl + ops.buffered e ≤ s.bytesRead
    exact Nat.le_trans (Nat.add_le_add_left hsame.buffered _) hc.held

theorem outputLower_fares {post : Unit → Layer H.Source H.Engine → Pcb → List Event → Prop} (h : post () l p []) :
    Fares o low (Secure.outputLower me) l p post := by
  unfold Secure.outputLower
  simp only [fares_bind, fares_inner, fares_output, fares_pure, List.nil_append]
  exact h

/-- **Flushing** leaves nothing ready as long as there is room. -/
theorem flush_fares (hc : Carries ops C o f far near k due s p) (hC : Couples ops C) (hl : l.session = some s)
    {post : Except Fault Bool → Layer H.Source H.Engine → Pcb → List Event → Prop}
    (h : ∀ clear s' q, Kept ops C o f far near k False s s' p q → s.Abides ops C s' →
      (clear = true → C.out s'.engine = []) → s'.applDataSent = s.applDataSent → post (.ok clear) (l.holding s') q []) :
    Fares o low (Secure.flush ops me) l p post := by
  unfold Secure.flush
  simp only [fares_bind, fares_get, hl]
  refine drive_fares hc.sound.rx hc.isOpen fun r e rx ps q hw hrx hq => ?_
  obtain ⟨hc', ha, clear, rfl, hclear⟩ := hc.flushed hC hw hrx hq
  have hout := (hC.flush hc.joined hw hq.taken).2.2.2.1
  simp only [Secure.setSession, fares_bind, fares_modify, List.nil_append]
  exact outputLower_fares (h clear _ q ⟨hc', hq.served, hq.going hout, ha.coming, ha.parted⟩ ha hclear rfl)

/-! ## Receiving -/

/-- What an engine yields is one piece of what is coming. It is owed until it is handed up. -/
theorem Carries.opened (hc : Carries ops C o f far near k due s p) (hC : Couples ops C) {n : Nat} (hn : 0 < n)
    (hf : s.inFlight = none) (ha : s.rxApp.toList = []) {ps : List Push} {e : H.Engine} {rx : Segments}
    {r : Except Fault Decrypted} (hw : Works (ops.decrypt s.engine n) s.rx.toList ps rx.toList (e, r))
    (hrx : rx.WellFormed) (hq : Takes o p ps q) :
    ∃ y, r = .ok y ∧ Kept ops C o f far near (k + y.bytes.length) due s ((s.worked e rx).opened y.bytes) p q ∧
      match y with
      | .data text => text ≠ []
      | .wouldBlock => C.waits e rx.toList
      | .peerClosed =>
        C.parted s.engine (s.rx.toList ++ near) ∧ C.coming near s = [] ∧ ops.buffered e = 0 := by
  obtain ⟨hout, hstuck, y, rfl, hsize, hplain, hparted, hjoined, hy⟩ := hC.decrypt hc.joined hn hw hq.taken
  have hgoing : C.going far (s.worked e rx) q = C.going far s p := hq.going hout
  have hcoming : C.coming near ((s.worked e rx).opened y.bytes) = C.coming near s := by
    show (s.rxApp.push y.bytes).toList ++ C.plain e (rx.toList ++ near) = _
    rw [Segments.toList_push, Coupling.coming, ha, hplain, List.nil_append, List.nil_append]
  refine ⟨y, rfl, ⟨⟨(hc.sound.worked hrx).opened hf, hq.wellFormed hc.unsent, ?_, ?_, ?_, ?_, ?_, ?_⟩, hq.served,
    hgoing, hcoming, hparted⟩, ?_⟩
  · rw [hq.frame]
    exact hc.isOpen
  · show C.joined e f (C.going far (s.worked e rx) q) (rx.toList ++ near)
    rw [hgoing]
    exact hjoined
  · intro ho
    rcases hstuck ho with rfl | hcramped
    · -- nothing was pushed, so nothing has changed
      cases hq
      refine hc.moving fun hn => ho ?_
      rw [hn] at hout
      exact hout.symm
    · exact .inl (hq.room_eq hcramped)
  · rw [hq.frame]
    exact hc.acked
  · have howed := hc.owed
    have hframe : q.received = p.received ∧ q.acked = p.acked := by
      rw [hq.frame]
      exact ⟨rfl, rfl⟩
    have hle := hw.length_le
    rw [← hrx.size_eq, ← hc.sound.rx.size_eq] at hle
    have hheld := hc.held
    rw [hframe.1, hframe.2]
    simp only [Session.opened, Session.worked]
    omega
  · have hheld := hc.held
    rw [← hrx.size_eq, ← hc.sound.rx.size_eq] at hsize
    simp only [Session.opened, Session.worked]
    omega
  · cases y with
    | data text => exact hy
    | wouldBlock => exact hy
    | peerClosed => exact ⟨hy.1, by rw [Coupling.coming, ha, hy.2.1]; rfl, hy.2.2⟩

theorem Kept.trans {k₁ : Nat} {p₁ : Pcb} (h : Kept ops C o f far near k₁ due s s₁ p p₁)
    (h' : Kept ops C o f far near k due' s₁ s' p₁ q) : Kept ops C o f far near k due' s s' p q :=
  ⟨h'.carries, h.served.trans h'.served, h'.going.trans h.going, h'.coming.trans h.coming, h'.parted.trans h.parted⟩

theorem ackLower_fares {n : Nat} (hp : p.acked ≤ p.received)
    {post : Unit → Layer H.Source H.Engine → Pcb → List Event → Prop} (h : post () l (p.heeded n) []) :
    Fares o low (Secure.ackLower n) l p post := by
  unfold Secure.ackLower
  split
  · rename_i h0
    subst h0
    have : p.heeded 0 = p := by
      unfold Pcb.heeded
      rw [Nat.add_zero, Nat.min_eq_left hp]
    rw [this] at h
    exact h
  · simp only [fares_bind, fares_inner, fares_recved, List.nil_append]
    exact h

/-- At the end of a record, what is not its plaintext is acknowledged. -/
theorem ackOverhead_fares (hc : Carries ops C o f far near k due s p) (h0 : ops.buffered s.engine = 0)
    {post : Unit → Layer H.Source H.Engine → Pcb → List Event → Prop}
    (h : ∀ q, Kept ops C o f far near k due s s.recordDone p q → post () (l.holding s.recordDone) q []) :
    Fares o low (Secure.ackOverhead me s) l p post := by
  have hheed : Carries ops C o f far near k due s.recordDone (p.heeded (s.bytesRead - s.bytesAppl)) :=
    hc.heeded rfl (by simp only [Session.recordDone]; omega) (by simp [Session.recordDone, h0])
  have hpost := h _ ⟨hheed, .heeded p _, rfl, rfl, Iff.rfl⟩
  have hack : Fares o low (do
      Secure.setSession { s with bytesRead := 0, bytesAppl := 0 }
      if 0 < s.bytesRead - s.bytesAppl then
        note (.trace "record overhead acknowledged" [me.field, ("overhead", toString (s.bytesRead - s.bytesAppl))])
        Secure.ackLower (s.bytesRead - s.bytesAppl)) l p post := by
    simp only [Secure.setSession, fares_bind, fares_modify, List.nil_append]
    split
    · simp only [fares_bind, fares_note, List.nil_append]
      exact ackLower_fares hc.acked hpost
    · rename_i hle
      have h0 : s.bytesRead - s.bytesAppl = 0 := by omega
      have hsame : p.heeded (s.bytesRead - s.bytesAppl) = p := by
        rw [h0, Pcb.heeded, Nat.add_zero, Nat.min_eq_left hc.acked]
      rw [hsame] at hpost
      exact hpost
  unfold Secure.ackOverhead
  dsimp only
  split
  · simp only [fares_bind, fares_note, List.nil_append] at hack ⊢
    exact hack
  · exact hack

/-- All that has come was taken, and no whole record is there. -/
structure Session.Rests (C : Coupling H.Engine) (s : Session H.Engine) : Prop where
  inFlight : s.inFlight = none
  rxApp : s.rxApp.toList = []
  bytes : s.bytesRead = s.bytesAppl
  waits : C.waits s.engine s.rx.toList

theorem Session.Abides.rests (h : s.Abides ops C s') (hr : s.Rests C) : s'.Rests C :=
  ⟨h.inFlight.trans hr.inFlight, by rw [h.rxApp, hr.rxApp], by rw [h.bytesRead, h.bytesAppl, hr.bytes],
    by rw [h.rx]; exact h.engine.waits _ hr.waits⟩

/-- A piece of plaintext is out. -/
structure Session.Offers (text : Bytes) (s : Session H.Engine) : Prop where
  nonempty : text ≠ []
  inFlight : s.inFlight = some text.length
  rxApp : s.rxApp.toList = text

/-- How it ends when a layer looks for the next piece of plaintext. -/
inductive Delivers (ops : EngineOps H.Engine H.Shared) (C : Coupling H.Engine) (o : Loopback.Options) (f : H.Engine)
    (far near : Bytes) (k : Nat) (due : Prop) (l : Layer H.Source H.Engine) (s : Session H.Engine) (p : Pcb) :
    Layer H.Source H.Engine → Pcb → List Event → Prop
  | rests {s' : Session H.Engine} {q : Pcb} (hk : Kept ops C o f far near k due s s' p q) (hr : s'.Rests C)
      (hp : s'.passedUnrecved = s.passedUnrecved) (hx : l.rxState = .opened) :
      Delivers ops C o f far near k due l s p (l.holding s') q []
  | ended {s' : Session H.Engine} {q : Pcb} (hk : Kept ops C o f far near k due s s' p q) (hr : s'.Rests C)
      (hp : s'.passedUnrecved = s.passedUnrecved) (hx : l.rxState = .eofQueued) :
      Delivers ops C o f far near k due l s p (l.holding s').ended q [.eof]
  | parted {s' : Session H.Engine} {q : Pcb} (hk : Kept ops C o f far near k due s s' p q)
      (hd : C.parted s.engine (s.rx.toList ++ near)) (hc : C.coming near s = [])
      (hp : s'.passedUnrecved = s.passedUnrecved) :
      Delivers ops C o f far near k due l s p (l.holding s').ended q [.eof]
  | offers {s' : Session H.Engine} {q : Pcb} {text : Bytes} (hk : Kept ops C o f far near k due s s' p q)
      (ho : s'.Offers text) (hp : s'.passedUnrecved = s.passedUnrecved + text.length) :
      Delivers ops C o f far near k due l s p (l.holding s') q [.recv text]

theorem deliverEof_fares (hr : l.rxState ≠ .closed)
    {post : Unit → Layer H.Source H.Engine → Pcb → List Event → Prop} (h : post () l.ended p [.eof]) :
    Fares o low (Secure.deliverEof me : Secure.Act H Unit) l p post := by
  unfold Secure.deliverEof Secure.afterRxClosed
  simp only [fares_bind, fares_get, if_neg hr, fares_modify, fares_note, List.nil_append]
  rw [fares_emit (by simp)]
  simp only [Layer.ended] at h
  split
  · rename_i ht
    simp only [Bool.and_eq_true] at ht
    simp only [fares_bind, fares_modify, fares_note]
    simpa [ht.1] using h
  · rename_i ht
    cases htx : l.txClosed with
    | false => simpa [htx] using h
    | true =>
      have hs : l.session = none := by
        cases hs : l.session with
        | none => rfl
        | some s => simp [htx, hs] at ht
      rw [fares_pure]
      simpa [htx, hs] using h

theorem offer_fares (hc : Carries ops C o f far near (k + s.rxApp.size) due s p)
    {post : Unit → Layer H.Source H.Engine → Pcb → List Event → Prop}
    (h : Kept ops C o f far near k due s s.offered p p → post () (l.holding s.offered) p [.recv s.rxApp.toList]) :
    Fares o low (Secure.offer s : Secure.Act H Unit) l p post := by
  unfold Secure.offer
  simp only [Secure.setSession, fares_bind, fares_modify, List.nil_append]
  rw [fares_emit (by simp)]
  refine h ⟨⟨hc.sound.offered, hc.unsent, hc.isOpen, hc.joined, hc.moving, hc.acked, ?_, hc.held⟩, .refl p, rfl, rfl,
    Iff.rfl⟩
  have := hc.owed
  simp only [Session.offered]
  omega

theorem offerHeld_fares (hc : Carries ops C o f far near (k + s.rxApp.size) due s p) (ha : s.rxApp.toList ≠ [])
    {post : Unit → Layer H.Source H.Engine → Pcb → List Event → Prop}
    (h : Kept ops C o f far near k due s s.offered p p → post () (l.holding s.offered) p [.recv s.rxApp.toList]) :
    Fares o low (Secure.offerHeld : Secure.Act H Unit) (l.holding s) p post := by
  unfold Secure.offerHeld
  simp only [fares_bind, fares_get, Layer.holding, List.nil_append]
  split
  · rename_i he
    exact absurd (hc.sound.rxApp.isEmpty_iff.1 he) ha
  · exact offer_fares hc h

theorem openRecord_fares (hc : Carries ops C o f far near k due s p) (hC : Couples ops C)
    (hn : 0 < l.config.options.rxChunkSize) (hx : l.rxState ≠ .closed) (hf : s.inFlight = none)
    (ha : s.rxApp.toList = []) {post : Unit → Layer H.Source H.Engine → Pcb → List Event → Prop}
    (h : ∀ l' q es, Delivers ops C o f far near k due l s p l' q es → post () l' q es) :
    Fares o low (Secure.openRecord ops me s) l p post := by
  unfold Secure.openRecord
  simp only [fares_bind, fares_get]
  refine drive_fares hc.sound.rx hc.isOpen fun r e rx ps q hw hrx hq => ?_
  obtain ⟨y, rfl, hk, hy⟩ := hc.opened hC hn hf ha hw hrx hq
  simp only [Secure.setSession, fares_modify, List.nil_append]
  cases y with
  | data text =>
    -- what is offered at the end is what was just opened
    have hoffer : ∀ s' q', Kept ops C o f far near (k + text.length) due s s' p q' →
        s'.rxApp = ((s.worked e rx).opened text).rxApp → s'.passedUnrecved = s.passedUnrecved →
        Fares o low (Secure.offerHeld : Secure.Act H Unit) (l.holding s') q' post := by
      intro s' q' hk' hrxApp hpassed
      have hlist : s'.rxApp.toList = text := by
        rw [hrxApp]
        show (s.rxApp.push text).toList = text
        rw [Segments.toList_push, ha, List.nil_append]
      have hsize : s'.rxApp.size = text.length := by rw [hk'.carries.sound.rxApp.size_eq, hlist]
      have hcar := hk'.carries
      rw [← hsize] at hcar
      refine offerHeld_fares hcar (by rw [hlist]; exact hy) fun hk₂ => ?_
      rw [hlist]
      refine h _ _ _ (.offers (hk'.trans hk₂) ⟨hy, ?_, hlist⟩ ?_)
      · show some s'.rxApp.size = _
        rw [hsize]
      · show s'.passedUnrecved + s'.rxApp.size = _
        rw [hpassed, hsize]
    simp only [fares_bind, fares_modify, List.nil_append]
    split
    · rename_i h0
      rw [fares_bind]
      exact ackOverhead_fares hk.carries h0 fun q' hk' => hoffer _ q' (hk.trans hk') rfl rfl
    · exact hoffer _ q hk rfl rfl
  | wouldBlock =>
    rw [Decrypted.bytes, Session.opened_nil, List.length_nil, Nat.add_zero] at hk
    obtain ⟨h0, -⟩ := hC.waits hk.carries.joined hy
    simp only [fares_bind, if_pos h0]
    refine ackOverhead_fares hk.carries h0 fun q' hk' => ?_
    have hrests : (s.worked e rx).recordDone.Rests C := ⟨hf, ha, rfl, hy⟩
    simp only [fares_get, List.nil_append]
    split
    · rename_i hq'
      exact deliverEof_fares (by simpa [Layer.holding] using hx) (h _ _ _ (.ended (hk.trans hk') hrests rfl hq'))
    · rename_i hq'
      have hopened : l.rxState = .opened := by
        cases hs : l.rxState with
        | opened => rfl
        | eofQueued => exact absurd hs hq'
        | closed => exact absurd hs hx
      rw [fares_pure]
      exact h _ _ _ (.rests (hk.trans hk') hrests rfl hopened)
  | peerClosed =>
    rw [Decrypted.bytes, Session.opened_nil, List.length_nil, Nat.add_zero] at hk
    obtain ⟨hparted, hcoming, h0⟩ := hy
    simp only [fares_bind, fares_note, List.nil_append]
    refine ackOverhead_fares hk.carries h0 fun q' hk' => ?_
    exact deliverEof_fares (by simpa [Layer.holding] using hx)
      (h _ _ _ (.parted (hk.trans hk') hparted hcoming rfl))

/-- **Looking for the next piece of plaintext**, when nothing is out and nothing held. -/
theorem deliver_fares (hc : Carries ops C o f far near k due s p) (hC : Couples ops C)
    (hn : 0 < l.config.options.rxChunkSize) (hp : l.phase = .established) (hx : l.rxState ≠ .closed)
    (hl : l.session = some s) (hf : s.inFlight = none) (ha : s.rxApp.toList = [])
    {post : Unit → Layer H.Source H.Engine → Pcb → List Event → Prop}
    (h : ∀ l' q es, Delivers ops C o f far near k due l s p l' q es → post () l' q es) :
    Fares o low (Secure.deliver ops me) l p post := by
  unfold Secure.deliver
  simp only [fares_bind, fares_get, hp, hx, hl, hf, List.nil_append]
  have he : s.rxApp.isEmpty = true := hc.sound.rxApp.isEmpty_iff.2 ha
  simp only [ne_eq, not_true_eq_false, decide_false, Bool.or_self, Bool.false_eq_true, if_false,
    Option.isSome_none, he, Bool.not_true]
  exact openRecord_fares hc hC hn hx hf ha h

/-! ## Methods -/

/-- Ciphertext that has arrived below is ciphertext that has arrived. -/
theorem Carries.arrived {data : Bytes} (hc : Carries ops C o f far (data ++ near) (k + data.length) due s p) :
    Carries ops C o f far near k due { s with rx := s.rx.push data } p := by
  refine ⟨⟨hc.sound.rx.push, hc.sound.rxApp, hc.sound.inFlight⟩, hc.unsent, hc.isOpen, ?_, hc.moving, hc.acked, ?_,
    hc.held⟩
  · have := hc.joined
    rw [← List.append_assoc] at this
    rw [Segments.toList_push]
    exact this
  · have := hc.owed
    rw [Segments.size_push]
    show _ ≤ p.acked + (s.rx.size + data.length + (s.bytesRead - s.bytesAppl) + s.passedUnrecved) + k
    omega

theorem lowerData_fares {data : Bytes} (hc : Carries ops C o f far (data ++ near) (k + data.length) due s p)
    (hC : Couples ops C) (hn : 0 < l.config.options.rxChunkSize) (hp : l.phase = .established)
    (hx : l.rxState ≠ .closed) (hl : l.session = some s) (hf : s.inFlight = none) (ha : s.rxApp.toList = [])
    {post : Outcome → Layer H.Source H.Engine → Pcb → List Event → Prop}
    (h : ∀ l' q es, Delivers ops C o f far near k due (l.holding { s with rx := s.rx.push data })
      { s with rx := s.rx.push data } p l' q es → post (.ok ()) l' q es) :
    Fares o low (Secure.lower ops me (.recv data)) l p post := by
  unfold Secure.lower Secure.lowerData
  simp only [fares_bind, fares_get, hl, List.nil_append]
  rw [if_pos hx]
  simp only [Secure.setSession, fares_bind, fares_modify, List.nil_append]
  unfold Secure.receive
  simp only [fares_bind, fares_get, List.nil_append]
  rw [if_neg (by rw [hp]; simp)]
  refine deliver_fares (l := l.holding _) hc.arrived hC hn hp hx rfl hf ha fun l' q es hd => ?_
  rw [fares_pure, List.append_nil]
  exact h l' q es hd

theorem sent_fares {n : Nat} (hc : Carries ops C o f far near k due s p) (hC : Couples ops C) (hl : l.session = some s)
    {post : Outcome → Layer H.Source H.Engine → Pcb → List Event → Prop}
    (h : ∀ s' q es, Kept ops C o f far near k False s s' p q → s.Abides ops C s' → es = [] ∨ es = [.sent 0] →
      post (.ok ()) (l.holding s') q es) : Fares o low (Secure.lower ops me (.sent n)) l p post := by
  unfold Secure.lower Secure.flushOn
  simp only [fares_bind, fares_note, List.nil_append]
  refine flush_fares hc hC hl fun clear s' q hk ha _ _ => ?_
  simp only [fares_pure, fares_get, List.nil_append]
  split
  · rw [fares_bind, fares_emit (by simp), fares_pure]
    exact h s' q [.sent 0] hk ha (.inr rfl)
  · rw [fares_pure]
    exact h s' q [] hk ha (.inl rfl)

/-- Plaintext that was taken. -/
theorem Carries.taken {n : Nat} (hc : Carries ops C o f far near k due s p) :
    Carries ops C o f far near k due { s with inFlight := none, rxApp := s.rxApp.advance n } p :=
  ⟨⟨hc.sound.rx, hc.sound.rxApp.advance, fun _ hn => by cases hn⟩, hc.unsent, hc.isOpen, hc.joined, hc.moving, hc.acked,
    hc.owed, hc.held⟩

theorem settle_fares {text : Bytes} (hc : Carries ops C o f far near k due s p) (hC : Couples ops C)
    (hn : 0 < l.config.options.rxChunkSize) (hp : l.phase = .established) (hx : l.rxState ≠ .closed)
    (hl : l.session = some s) (ho : s.Offers text)
    {post : Unit → Layer H.Source H.Engine → Pcb → List Event → Prop}
    (h : ∀ s₁ : Session H.Engine, C.coming near s = text ++ C.coming near s₁ → s₁.passedUnrecved = s.passedUnrecved →
      C.going far s₁ p = C.going far s p → 
      (C.parted s₁.engine (s₁.rx.toList ++ near) ↔ C.parted s.engine (s.rx.toList ++ near)) →
      ∀ l' q es, Delivers ops C o f far near k due (l.holding s₁) s₁ p l' q es → post () l' q es) :
    Fares o low (Secure.settle ops me (.ok ())) l p post := by
  unfold Secure.settle
  simp only [fares_bind, fares_get, hl, ho.inFlight, Secure.setSession, fares_modify, List.nil_append]
  have hnil : (s.rxApp.advance text.length).toList = [] := by
    rw [Segments.toList_advance hc.sound.rxApp, ho.rxApp, List.drop_length]
  refine deliver_fares (l := l.holding _) hc.taken hC hn hp hx rfl rfl hnil fun l' q es hd =>
    h { s with inFlight := none, rxApp := s.rxApp.advance text.length } ?_ rfl rfl Iff.rfl l' q es hd
  unfold Coupling.coming
  rw [ho.rxApp, hnil, List.nil_append]

theorem recved_fares {n : Nat} (hc : Carries ops C o f far near k due s p) (hp : l.phase = .established)
    (hl : l.session = some s) {post : Unit → Layer H.Source H.Engine → Pcb → List Event → Prop}
    (h : ∀ q, let s' := { s with passedUnrecved := s.passedUnrecved - n }
      Kept ops C o f far near k due s s' p q → post () (l.holding s') q []) :
    Fares o low (Secure.recved me n) l p post := by
  have hmin : s.passedUnrecved - min n s.passedUnrecved = s.passedUnrecved - n := by omega
  have hheed : Carries ops C o f far near k due { s with passedUnrecved := s.passedUnrecved - n }
      (p.heeded (min n s.passedUnrecved)) :=
    hc.heeded rfl (by show _ ≤ s.bytesRead - s.bytesAppl + (s.passedUnrecved - n) + _; omega) hc.held
  have hpost := h _ ⟨hheed, .heeded p _, rfl, rfl, Iff.rfl⟩
  unfold Secure.recved
  simp only [fares_bind, fares_get, hp, hl, hmin, Secure.setSession, List.nil_append]
  split
  · simp only [fares_bind, fares_note, fares_modify, List.nil_append]
    exact ackLower_fares hc.acked hpost
  · simp only [fares_bind, fares_modify, List.nil_append]
    exact ackLower_fares hc.acked hpost

/-- What has become of data that was to be written: it is on its way, or nothing of it is. -/
inductive Writes (C : Coupling H.Engine) (f : H.Engine) (data before after : Bytes) : Outcome → Prop
  | taken (hp : C.plain f after = C.plain f before ++ data) (hd : ¬ C.parted f after) : Writes C f data before after (.ok ())
  | refused (h : after = before) : Writes C f data before after (.error .wouldBlock)

theorem encrypt_fares {data : Bytes} (hc : Carries ops C o f far near k due s p) (hC : Couples ops C)
    (hl : l.session = some s) (hd : ¬ C.parted f (C.going far s p)) (hne : data ≠ []) (hout : C.out s.engine = [])
    {post : Outcome → Layer H.Source H.Engine → Pcb → List Event → Prop}
    (h : ∀ s' q, Carries ops C o f far near k False s' q → p.Served q → s.Abides ops C s' →
      Writes C f data (C.going far s p) (C.going far s' q) (.ok ()) → post (.ok ()) (l.holding s') q []) :
    Fares o low (Secure.encrypt ops me data (.ok true)) l p post := by
  obtain ⟨e, he, hsame, hjoined, hplain, hparted⟩ := hC.encrypt hc.joined hd hout hne
  have hgoing : C.going far { s with engine := e, applDataSent := true } p = C.going far s p ++ C.out e := by
    unfold Coupling.going
    rw [hout, List.append_nil]
  have hc' : Carries ops C o f far near k True { s with engine := e, applDataSent := true } p := by
    refine ⟨⟨hc.sound.rx, hc.sound.rxApp, hc.sound.inFlight⟩, hc.unsent, hc.isOpen, ?_, fun _ => .inr trivial, hc.acked,
      hc.owed, Nat.le_trans (Nat.add_le_add_left hsame.buffered _) hc.held⟩
    rw [hgoing]
    exact hjoined
  unfold Secure.encrypt
  simp only [fares_bind, fares_get, hl, he, Secure.setSession, fares_modify, List.nil_append]
  rw [if_neg (by simp)]
  simp only [fares_bind, fares_modify, List.nil_append]
  refine flush_fares (l := l.holding _) hc' hC rfl fun clear s' q hk ha _ _ => ?_
  rw [fares_pure]
  have hs : s.Abides ops C { s with engine := e, applDataSent := true } := ⟨hsame, rfl, rfl, rfl, rfl, rfl, rfl⟩
  refine h s' q hk.carries hk.served (hs.trans ha) ?_
  rw [hk.going, hgoing]
  exact .taken hplain hparted

/-- **Writing**: all of the data is on its way, or nothing of it is. -/
theorem write_fares {data : Bytes} (hc : Carries ops C o f far near k due s p) (hC : Couples ops C)
    (hp : l.phase = .established) (ht : l.txClosed = false) (hl : l.session = some s)
    (hd : ¬ C.parted f (C.going far s p)) {post : Outcome → Layer H.Source H.Engine → Pcb → List Event → Prop}
    (h : ∀ r s' q, Carries ops C o f far near k due s' q → p.Served q → s.Abides ops C s' →
      Writes C f data (C.going far s p) (C.going far s' q) r → post r (l.holding s') q []) :
    Fares o low (Secure.write ops me data) l p post := by
  have hself : l.holding s = l := by
    cases l
    cases hl
    rfl
  have habides : s.Abides ops C s :=
    ⟨⟨fun _ => rfl, fun _ => Iff.rfl, fun _ => id, Nat.le_refl _⟩, rfl, rfl, rfl, rfl, rfl, rfl⟩
  unfold Secure.write
  simp only [fares_bind, fares_get, hp, ht, Bool.false_eq_true, if_false, List.nil_append]
  by_cases hne : data = []
  · subst hne
    have := h (.ok ()) s p hc (.refl p) habides (.taken (List.append_nil _).symm hd)
    rw [hself] at this
    simpa using this
  · rw [if_neg (by simpa using hne)]
    simp only [hl, Option.map_some, Option.getD_some]
    split
    · -- something older waits
      rw [fares_bind]
      refine flush_fares hc hC hl fun clear s₁ p₁ hk ha hclear _ => ?_
      cases clear with
      | false =>
        unfold Secure.encrypt
        simp only [fares_bind, fares_note, fares_pure, List.nil_append]
        exact h _ s₁ p₁ (hk.carries.mono fun hn => hn.elim) hk.served ha (.refused hk.going)
      | true =>
        have hd₁ : ¬ C.parted f (C.going far s₁ p₁) := by
          rw [hk.going]
          exact hd
        refine encrypt_fares hk.carries hC rfl hd₁ hne (hclear rfl) fun s' q hc' hq ha' hw => ?_
        rw [hk.going] at hw
        exact h _ s' q (hc'.mono fun hn => hn.elim) (hk.served.trans hq) (ha.trans ha') hw
    · rename_i hw
      rw [fares_bind, fares_pure]
      have hout : C.out s.engine = [] := Decidable.not_not.1 fun hn => hw ((hC.wantsWrite _).2 hn)
      refine encrypt_fares hc hC hl hd hne hout fun s' q hc' hq ha' hwr => ?_
      exact h _ s' q (hc'.mono fun hn => hn.elim) hq ha' hwr

end Tls

end Conduit
