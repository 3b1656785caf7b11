import Conduit.Proofs.Tls.Obliging

/-!
# Conservation of the receive window

Every byte of ciphertext that a TLS layer has received is acknowledged below, or held, or out with the receiver, once.

* `Balanced`: the account of a layer. `Move.balanced`, `Enter.balanced`: what a turn does to it.
* `Life.conserves`: **the account of a layer balances throughout its life.**
-/

namespace Conduit

open Layer

namespace Tls

variable {H : Host}

variable {ops : EngineOps H.Engine H.Shared} {good : H.Engine → Prop} {b me : Handle}

/-- The account of a session: `a` bytes were acknowledged below, `r` were received. -/
structure Session.Accounted (ops : EngineOps H.Engine H.Shared) (good : H.Engine → Prop)
    (l : Layer H.Source H.Engine) (a r : Nat) (s : Session H.Engine) : Prop where
  /-- Plaintext that is out is counted twice, as held and as handed up. -/
  account : a + s.rx.size + s.bytesRead + s.rxApp.size + s.passedUnrecved = r + s.bytesAppl + s.inFlight.getD 0
  good : good s.engine
  appl_le : s.bytesAppl ≤ s.bytesRead
  /-- The rest of a record is paid for when it is read. -/
  held_le : l.rxState ≠ .closed → s.bytesAppl + ops.buffered s.engine ≤ s.bytesRead
  /-- Before the handshake is complete there is no plaintext. -/
  fresh : l.phase ≠ .established → s.bytesAppl = 0 ∧ ops.buffered s.engine = 0

/-- The account of a layer; without a session, all that was received is acknowledged. -/
def Balanced (ops : EngineOps H.Engine H.Shared) (good : H.Engine → Prop) (a r : Nat)
    (l : Layer H.Source H.Engine) : Prop :=
  match l.session with
  | none => a = r
  | some s => s.Accounted ops good l a r

theorem Balanced.session {a r : Nat} {l : Layer H.Source H.Engine} {s : Session H.Engine}
    (h : Balanced ops good a r l) (hs : l.session = some s) : s.Accounted ops good l a r := by
  unfold Balanced at h
  rw [hs] at h
  exact h

variable {l₀ l l' : Layer H.Source H.Engine} {s s' : Session H.Engine} {d u v : Trace H} {a r : Nat}

/-- Running an engine moves bytes from the arrived to the taken ones. -/
theorem Drives.size_add {α : Type} {p : EngineAct H.Shared (H.Engine × α)} {x : α} (h : Drives b s p x u s')
    (hs : s.rx.WellFormed) : s'.rx.size + s'.bytesRead = s.rx.size + s.bytesRead ∧ s.bytesRead ≤ s'.bytesRead := by
  cases h with
  | @intro ps rx e x u hw hrx hu =>
    have hle := hw.length_le
    rw [← hrx.size_eq, ← hs.size_eq] at hle
    simp only [Session.worked]
    omega

/-- What running an engine leaves as it is. -/
theorem Drives.frame {α : Type} {p : EngineAct H.Shared (H.Engine × α)} {x : α} (h : Drives b s p x u s') :
    s'.rxApp = s.rxApp ∧ s'.bytesAppl = s.bytesAppl ∧ s'.passedUnrecved = s.passedUnrecved ∧
      s'.inFlight = s.inFlight := by
  cases h with
  | intro => exact ⟨rfl, rfl, rfl, rfl⟩

theorem Drives.works {α : Type} {p : EngineAct H.Shared (H.Engine × α)} {x : α} (h : Drives b s p x u s') :
    ∃ ps, Works p s.rx.toList ps s'.rx.toList (s'.engine, x) ∧ Relays b ps u := by
  cases h with
  | intro hw hrx hu => exact ⟨_, hw, hu⟩

theorem Drives.acked_eq {α : Type} {p : EngineAct H.Shared (H.Engine × α)} {x : α} (h : Drives b s p x u s') :
    acked b u = 0 := by
  obtain ⟨ps, -, hu⟩ := h.works
  exact hu.acked_eq

/-- Of the layer, an account needs to know only how far it has come. -/
theorem Session.Accounted.of_layer (hb : s.Accounted ops good l a r) (hr : l'.rxState ≠ .closed → l.rxState ≠ .closed)
    (hp : l'.phase ≠ .established → l.phase ≠ .established) : s.Accounted ops good l' a r :=
  ⟨hb.account, hb.good, hb.appl_le, fun h => hb.held_le (hr h), fun h => hb.fresh (hp h)⟩

/-- An engine at work changes no account, as long as it stays good for what it holds. -/
theorem Session.Accounted.drives {α : Type} {p : EngineAct H.Shared (H.Engine × α)} {x : α}
    (hb : s.Accounted ops good l a r) (hs : s.rx.WellFormed) (hd : Drives b s p x u s') (hg : good s'.engine)
    (hle : ops.buffered s'.engine ≤ ops.buffered s.engine) : s'.Accounted ops good l a r := by
  obtain ⟨hsum, hread⟩ := hd.size_add hs
  obtain ⟨happ, hbytes, hpass, hfl⟩ := hd.frame
  refine ⟨?_, hg, ?_, fun hr => ?_, fun hp => ?_⟩
  · have := hb.account
    rw [happ, hbytes, hpass, hfl]
    omega
  · have := hb.appl_le
    omega
  · have := hb.held_le hr
    omega
  · have := hb.fresh hp
    omega

/-- The end of a record: what was taken beyond its plaintext is acknowledged. -/
theorem Session.Accounted.recordDone (hb : s.Accounted ops good l a r) (hp : l.phase = .established)
    (h0 : l.rxState ≠ .closed → ops.buffered s.engine = 0) :
    s.recordDone.Accounted ops good l (a + (s.bytesRead - s.bytesAppl)) r := by
  refine ⟨?_, hb.good, Nat.le_refl _, fun hr => ?_, fun hn => absurd hp hn⟩
  · have := hb.account
    have := hb.appl_le
    simp only [Session.recordDone]
    omega
  · simp only [Session.recordDone, h0 hr, Nat.le_refl]

theorem Completes.balanced (h : Completes b s (ops.buffered s.engine) v s') (hb : s.Accounted ops good l a r)
    (hp : l.phase = .established) : s'.Accounted ops good l (a + acked b v) r := by
  cases h with
  | partly => exact hb
  | fully h0 hu =>
    rw [hu.acked_eq]
    exact hb.recordDone hp fun _ => h0

/-- What the engine yields next is paid for by what it takes. -/
theorem Opens.balanced {x : Decrypted} (ho : Opens ops b l s (.ok x) u s') (hf : Frugal ops good)
    (hb : Balanced ops good a r l) (hl : l.Sound) :
    (s'.opened x.bytes).Accounted ops good l a r ∧ l.phase = .established ∧ acked b u = 0 := by
  cases ho with
  | intro hp hr hs hfl ha n hd =>
    have hb := hb.session hs
    obtain ⟨ps, hw, hu⟩ := hd.works
    obtain ⟨hg, hle⟩ := hf.decrypt hb.good hw
    obtain ⟨hsum, hread⟩ := hd.size_add (hl s hs).rx
    obtain ⟨happ, hbytes, hpass, hfl'⟩ := hd.frame
    rw [← (hd.sound (hl s hs)).rx.size_eq, ← (hl s hs).rx.size_eq] at hle
    have hheld := hb.held_le hr
    refine ⟨⟨?_, hg, ?_, fun _ => ?_, fun hn => absurd hp hn⟩, hp, hd.acked_eq⟩
    · have := hb.account
      simp only [Session.opened, Segments.size_push, happ, hbytes, hpass, hfl']
      omega
    · simp only [Session.opened, hbytes]
      omega
    · simp only [Session.opened, hbytes]
      omega

theorem Balanced.of_none (hs : l'.session = none) (h : a = r) : Balanced ops good a r l' := by
  unfold Balanced
  rw [hs]
  exact h

theorem Balanced.of_session (hs : l'.session = some s) (h : s.Accounted ops good l' a r) :
    Balanced ops good a r l' := by
  unfold Balanced
  rw [hs]
  exact h

theorem Balanced.of_layer (hb : Balanced ops good a r l) (hs : l'.session = l.session)
    (hr : l'.rxState ≠ .closed → l.rxState ≠ .closed) (hp : l'.phase ≠ .established → l.phase ≠ .established) :
    Balanced ops good a r l' := by
  cases hs' : l.session with
  | none =>
    unfold Balanced at hb
    rw [hs'] at hb
    exact .of_none (hs.trans hs') hb
  | some s => exact .of_session (hs.trans hs') ((hb.session hs').of_layer hr hp)

/-- A session is never regained by a move. -/
theorem Move.session_none (h : Move ops b l d l') (hl : l.session = none) : l'.session = none := by
  cases h with
  | idle | connecting => exact hl
  | unshaken | unopened => rfl
  | shaken hp hs => rw [hl] at hs; cases hs
  | sealed data sent hs => rw [hl] at hs; cases hs
  | flushed hs => rw [hl] at hs; cases hs
  | offered hp hr hs => rw [hl] at hs; cases hs
  | opened ho | stalled ho | drained ho | finished ho =>
    cases ho with
    | intro hp hr hs => rw [hl] at hs; cases hs

/-- The session is lost; of what was received, no more was acknowledged than all. -/
structure Loses (a r : Nat) (l l' : Layer H.Source H.Engine) : Prop where
  lived : l.session.isSome
  lost : l'.session = none
  le : a ≤ r

/-- A delivery that is out is all that is held. -/
theorem Session.Sound.out_le (hs : s.Sound) : s.inFlight.getD 0 ≤ s.rxApp.size := by
  cases hn : s.inFlight with
  | none => exact Nat.zero_le _
  | some n => exact Nat.le_of_eq (hs.inFlight n hn)

/-- What is out is held as well, so nothing was acknowledged that was not received. -/
theorem Session.Accounted.le (hb : s.Accounted ops good l a r) (hs : s.Sound) : a ≤ r := by
  have hacc := hb.account
  have happ := hb.appl_le
  have hout := hs.out_le
  omega

theorem Balanced.le (hb : Balanced ops good a r l) (hl : l.Sound) : a ≤ r := by
  cases hs : l.session with
  | none =>
    unfold Balanced at hb
    rw [hs] at hb
    exact Nat.le_of_eq hb
  | some s => exact (hb.session hs).le (hl s hs)

theorem Breaks.acked_eq {q : RxState} (h : Breaks b q d) : acked b d = 0 := by
  cases h with
  | told hr hu => rw [acked_cons, hu.acked_eq]; rfl
  | known hu => exact hu.acked_eq

/-- The end of the stream takes nothing from the account. -/
theorem Session.Accounted.ended (hb : s.Accounted ops good l a r) :
    Balanced ops good a r (l.holding s).ended ∨ (l.holding s).ended.session = none := by
  unfold Layer.ended
  split
  · exact .inr rfl
  · exact .inl (.of_session rfl (hb.of_layer (fun hr => absurd rfl hr) id))

/-- A step of the handshake takes no plaintext, and all that it takes is acknowledged. -/
theorem Session.Accounted.shaken (hb : s.Accounted ops good l a r) (hs : s.Sound) (hf : Frugal ops good)
    (hp : l.phase = .handshaking) {p : Progress} (hd : Drives b s (ops.handshake s.engine) (.ok p) u s') :
    { s' with bytesRead := 0 }.Accounted ops good l' (a + s'.bytesRead) r := by
  obtain ⟨ps, hw, -⟩ := hd.works
  obtain ⟨hg, hle⟩ := hf.handshake hb.good hw
  obtain ⟨hsum, -⟩ := hd.size_add hs.rx
  obtain ⟨happ, hbytes, hpass, hfl⟩ := hd.frame
  obtain ⟨h₀, h₁⟩ := hb.fresh (by rw [hp]; simp)
  have hacc := hb.account
  refine ⟨?_, hg, ?_, fun _ => ?_, fun _ => ⟨?_, ?_⟩⟩ <;>
    simp only [happ, hbytes, hpass, hfl] <;> omega

/-- A move keeps the account, or loses the session. -/
theorem Move.balanced (h : Move ops b l d l') (hf : Frugal ops good) (hl : l.Sound) (hb : Balanced ops good a r l) :
    Balanced ops good (a + acked b d) r l' ∨ Loses (a + acked b d) r l l' := by
  have hlost : ∀ {s}, l.session = some s → l.session.isSome := fun hs => by rw [hs]; rfl
  cases h with
  | idle hx =>
    left
    simpa [hx.acked_eq] using hb
  | connecting => exact .inl (hb.of_layer rfl id id)
  | shaken hp hs hd x hv =>
    left
    simp only [acked_append, acked_cons, hd.acked_eq, hv.acked_eq, ackedBy, Nat.zero_add]
    exact .of_session rfl ((hb.session hs).shaken (hl _ hs) hf hp hd)
  | unshaken hp hs hd x hv hw =>
    have hb := hb.session hs
    obtain ⟨hsum, -⟩ := hd.size_add (hl _ hs).rx
    obtain ⟨h₀, -⟩ := hb.fresh (by rw [hp]; simp)
    have hle := hb.le (hl _ hs)
    have hacc := hb.account
    have hout := (hl _ hs).out_le
    refine .inr ⟨hlost hs, rfl, ?_⟩
    simp only [acked_append, acked_cons, hd.acked_eq, hv.acked_eq, hw.acked_eq, ackedBy]
    omega
  | unopened ho hv =>
    cases ho with
    | intro hp hr hs hfl ha n hd =>
      refine .inr ⟨hlost hs, rfl, ?_⟩
      rw [acked_append, hd.acked_eq, hv.acked_eq]
      exact (hb.session hs).le (hl _ hs)
  | sealed data sent hs =>
    left
    have hb := hb.session hs
    obtain ⟨hg, hle⟩ := hf.encrypt hb.good
    refine .of_session rfl ⟨hb.account, hg, hb.appl_le, fun hr => ?_, fun hp => ?_⟩
    · exact Nat.le_trans (Nat.add_le_add_left hle _) (hb.held_le hr)
    · obtain ⟨h₀, h₁⟩ := hb.fresh hp
      exact ⟨h₀, Nat.le_zero.1 (h₁ ▸ hle)⟩
  | flushed hs hd =>
    left
    obtain ⟨ps, hw, -⟩ := hd.works
    obtain ⟨hg, hle⟩ := hf.flush (hb.session hs).good hw
    have := (hb.session hs).drives (hl _ hs).rx hd hg hle
    rw [hd.acked_eq]
    exact .of_session rfl (this.of_layer id id)
  | offered hp hr hs hfl ha =>
    left
    have hb := hb.session hs
    refine .of_session rfl ⟨?_, hb.good, hb.appl_le, hb.held_le, hb.fresh⟩
    have := hb.account
    simp only [Session.offered, hfl, acked_cons, acked_nil, ackedBy, Option.getD_none, Option.getD_some] at this ⊢
    omega
  | opened ho hv =>
    left
    obtain ⟨hs', hp, hu⟩ := ho.balanced hf hb hl
    have := hv.balanced hs' hp
    rw [acked_append, hu, Nat.zero_add]
    exact .of_session rfl (this.of_layer id id)
  | stalled ho hr hv =>
    left
    obtain ⟨hs', hp, hu⟩ := ho.balanced hf hb hl
    have := hv.balanced (by simpa [Decrypted.bytes, Session.opened_nil] using hs') hp
    rw [acked_append, hu, Nat.zero_add]
    exact .of_session rfl (this.of_layer id id)
  | drained ho hr hv =>
    obtain ⟨hs', hp, hu⟩ := ho.balanced hf hb hl
    have := hv.balanced (by simpa [Decrypted.bytes, Session.opened_nil] using hs') hp
    have hle := this.le (hv.sound (ho.sound hl))
    rw [acked_append, acked_append, hu, Nat.zero_add]
    exact this.ended.imp id fun hn => ⟨by cases ho with | intro _ _ hs => exact hlost hs, hn, hle⟩
  | @finished s s' u v ho hv =>
    obtain ⟨hs', hp, hu⟩ := ho.balanced hf hb hl
    have hs' : s'.Accounted ops good { l with rxState := .closed } a r := by
      rw [Decrypted.bytes, Session.opened_nil] at hs'
      exact hs'.of_layer (fun hr => absurd rfl hr) id
    have := hs'.recordDone hp fun hr => absurd rfl hr
    have hle := this.le (ho.sound hl).recordDone
    rw [acked_append, acked_append, hu, hv.acked_eq, Nat.zero_add]
    exact this.ended.imp id fun hn => ⟨by cases ho with | intro _ _ hs => exact hlost hs, hn, hle⟩

theorem Enter.session_none {m : Method} (h : Enter b m l d l') (hl : l.session = none) : l'.session = none := by
  cases h with
  | quiet | dropped | finished | unfinished | unasked | unrecved => exact hl
  | cut | lost => rfl
  | arrived hs | taken hs | refused hs => rw [hl] at hs; cases hs
  | recved hp hs => rw [hl] at hs; cases hs

/-- Without a session nothing is acknowledged of its own accord. -/
theorem Move.acked_of_none (h : Move ops b l d l') (hl : l.session = none) : acked b d = 0 := by
  cases h with
  | idle hx => rw [acked_cons, hx.acked_eq, acked_nil]
  | connecting => rfl
  | shaken hp hs | unshaken hp hs | flushed hs | offered hp hr hs => rw [hl] at hs; cases hs
  | sealed data sent hs => rw [hl] at hs; cases hs
  | opened ho | stalled ho | drained ho | finished ho | unopened ho =>
    cases ho with
    | intro hp hr hs => rw [hl] at hs; cases hs

theorem Moves.acked_of_none (h : Moves ops b l d l') (hl : l.session = none) : acked b d = 0 := by
  induction h with
  | refl => rfl
  | step h _ ih => rw [acked_append, h.acked_of_none hl, ih (h.session_none hl)]

theorem Moves.session_none (h : Moves ops b l d l') (hl : l.session = none) : l'.session = none := by
  induction h with
  | refl => exact hl
  | step h _ ih => exact ih (h.session_none hl)

theorem Moves.balanced (h : Moves ops b l d l') (hf : Frugal ops good) (hl : l.Sound) (hb : Balanced ops good a r l) :
    Balanced ops good (a + acked b d) r l' ∨ Loses (a + acked b d) r l l' := by
  induction h generalizing a with
  | refl => exact .inl hb
  | @step l l₁ l' d d' h hs ih =>
    rw [acked_append, ← Nat.add_assoc]
    rcases h.balanced hf hl hb with hb₁ | ⟨hsome, hnone, hle⟩
    · rcases ih (h.sound hl) hb₁ with hb' | ⟨hsome, hnone, hle⟩
      · exact .inl hb'
      · refine .inr ⟨?_, hnone, hle⟩
        cases hs' : l.session with
        | none =>
          rw [h.session_none hs'] at hsome
          cases hsome
        | some s => rfl
    · -- nothing is acknowledged any more once the session is lost
      have h0 : acked b d' = 0 := hs.acked_of_none hnone
      rw [h0]
      exact .inr ⟨hsome, hs.session_none hnone, hle⟩

/-- What is asked of a call: nothing is refused that was acknowledged already, an engine that is drawn holds nothing
yet, and the session lives on. -/
structure Call.Regular (ops : EngineOps H.Engine H.Shared) (good : H.Engine → Prop) (c : Call H) : Prop where
  refused : ∀ f s n, c.method = .settled (.error f) → c.before.session = some s → s.inFlight = some n →
    n ≤ s.passedUnrecved
  drawn : ∀ config name e, ⟨.newEngine config name, .ok e⟩ ∈ c.trace → good e ∧ ops.buffered e = 0
  lives : c.before.session.isSome → c.after.session.isSome

/-- What a refusal takes back that was acknowledged before. -/
def returned (m : Method) (l : Layer H.Source H.Engine) : Nat :=
  match m with
  | .settled (.error _) => (l.session.map fun s => s.inFlight.getD 0 - s.passedUnrecved).getD 0
  | _ => 0

theorem returned_eq_zero {m : Method} (h : ∀ f s n, m = .settled (.error f) → l.session = some s →
    s.inFlight = some n → n ≤ s.passedUnrecved) : returned m l = 0 := by
  unfold returned
  split
  · rename_i f
    cases hs : l.session with
    | none => rfl
    | some s =>
      show s.inFlight.getD 0 - s.passedUnrecved = 0
      cases hn : s.inFlight with
      | none => exact Nat.zero_sub _
      | some n => exact Nat.sub_eq_zero_of_le (h f s n rfl hs hn)
  · rfl

/-- What a method does first keeps the account, with what the method brings, and what it takes back, counted as
received. -/
theorem Enter.balanced {m : Method} (h : Enter b m l d l') (hl : l.Sound) (hb : Balanced ops good a r l) :
    Balanced ops good (a + acked b d) (r + m.arrived.length + returned m l) l' ∨
      Loses (a + acked b d) (r + m.arrived.length + returned m l) l l' := by
  cases h with
  | quiet hm =>
    left
    have h0 : m.arrived = [] := by
      unfold Method.arrived
      split
      · cases hm
      · rfl
    have h1 : returned m l = 0 := returned_eq_zero fun f s n hf => by
      rw [hf] at hm
      cases hm
    rw [h0, h1]
    exact hb
  | arrived hs hrx =>
    left
    have hb := hb.session hs
    refine .of_session rfl ⟨?_, hb.good, hb.appl_le, hb.held_le, hb.fresh⟩
    have := hb.account
    simp only [Segments.size_push, acked_nil, Method.arrived, returned]
    omega
  | dropped hn hu =>
    left
    rw [hu.acked_eq]
    unfold Balanced at hb ⊢
    split at hb
    · exact congrArg (· + _) hb
    · refine ⟨?_, hb.good, hb.appl_le, hb.held_le, hb.fresh⟩
      have := hb.account
      simp only [Method.arrived, returned]
      omega
  | finished hp hrx => exact .inl (hb.of_layer rfl (fun _ => by rw [hrx]; simp) id)
  | unfinished | unrecved => exact .inl hb
  | @unasked l v hn =>
    left
    have h1 : returned (.settled v) l = 0 := returned_eq_zero fun f s n _ hs hf => by
      rw [hn s hs] at hf
      cases hf
    rw [h1]
    exact hb
  | cut hp hu =>
    cases hs : l.session with
    | none =>
      left
      simpa [hu.acked_eq, ackedBy, Method.arrived, returned] using
        @Balanced.of_layer _ _ _ l { l with session := none } _ _ hb hs.symm id id
    | some s =>
      refine .inr ⟨by rw [hs]; rfl, rfl, ?_⟩
      simpa [hu.acked_eq, ackedBy, Method.arrived, returned] using hb.le hl
  | lost =>
    cases hs : l.session with
    | none =>
      left
      simpa [ackedBy, Method.arrived, returned] using
        @Balanced.of_layer _ _ _ l { l with session := none } _ _ hb hs.symm id id
    | some s =>
      refine .inr ⟨by rw [hs]; rfl, rfl, ?_⟩
      simpa [ackedBy, Method.arrived, returned] using hb.le hl
  | taken hs hfl =>
    left
    have hb := hb.session hs
    refine .of_session rfl ⟨?_, hb.good, hb.appl_le, hb.held_le, hb.fresh⟩
    have := hb.account
    have := (hl _ hs).inFlight _ hfl
    simp only [Segments.size_advance, hfl, Option.getD_some, Option.getD_none, acked_nil, Method.arrived,
      List.length_nil, returned] at *
    omega
  | refused hs hfl =>
    left
    have hb := hb.session hs
    refine .of_session rfl ⟨?_, hb.good, hb.appl_le, hb.held_le, hb.fresh⟩
    have := hb.account
    simp only [hs, hfl, Option.map_some, Option.getD_some, Option.getD_none, acked_nil, Method.arrived,
      List.length_nil, returned] at *
    omega
  | recved hp hs hu =>
    left
    have hb := hb.session hs
    refine .of_session rfl ⟨?_, hb.good, hb.appl_le, hb.held_le, hb.fresh⟩
    have := hb.account
    simp only [hu.acked_eq, Method.arrived, List.length_nil, returned]
    omega

/-- A layer at its beginning: its engine, if it has one yet, holds nothing. -/
def Fresh (ops : EngineOps H.Engine H.Shared) (good : H.Engine → Prop) (l : Layer H.Source H.Engine) : Prop :=
  ∀ s, l.session = some s → ∃ e, s = .ofEngine e ∧ good e ∧ ops.buffered e = 0

theorem Fresh.balanced (h : Fresh ops good l) : Balanced ops good 0 0 l := by
  cases hs : l.session with
  | none => exact .of_none hs rfl
  | some s =>
    obtain ⟨e, rfl, hg, h0⟩ := h s hs
    exact .of_session hs ⟨rfl, hg, Nat.le_refl _, fun _ => by simp [Session.ofEngine, h0], fun _ => ⟨rfl, h0⟩⟩

theorem Fresh.sound (h : Fresh ops good l) : l.Sound := by
  intro s hs
  obtain ⟨e, rfl, -⟩ := h s hs
  exact .ofEngine e

/-- Every turn keeps the account, or loses the session. -/
theorem Turns.accounted {m : Method} (h : Turns ops b m l d l') (hf : Frugal ops good) (hl : l.Sound)
    (hd : ∀ config name e, ⟨.newEngine config name, .ok e⟩ ∈ d → good e ∧ ops.buffered e = 0)
    (hb : Balanced ops good a r l) :
    Balanced ops good (a + acked b d) (r + m.arrived.length + returned m l) l' ∨
      Loses (a + acked b d) (r + m.arrived.length + returned m l) l l' := by
  cases h with
  | @moved _ _ l₁ _ d₁ d₂ he hm =>
    rw [acked_append, ← Nat.add_assoc]
    rcases he.balanced hl hb with hb₁ | ⟨hsome, hnone, hle⟩
    · rcases hm.balanced hf (he.sound hl) hb₁ with hb' | ⟨hsome, hnone, hle⟩
      · exact .inl hb'
      · refine .inr ⟨?_, hnone, hle⟩
        cases hs : l.session with
        | none =>
          rw [he.session_none hs] at hsome
          cases hsome
        | some s => rfl
    · rw [hm.acked_of_none hnone]
      exact .inr ⟨hsome, hm.session_none hnone, hle⟩
  | drawn hs x c =>
    obtain ⟨hg, h0⟩ := hd _ _ _ (List.mem_cons_self ..)
    unfold Balanced at hb
    rw [hs] at hb
    subst hb
    exact .inl (.of_session rfl
      ⟨rfl, hg, Nat.le_refl _, fun _ => by simp [Session.ofEngine, h0], fun _ => ⟨rfl, h0⟩⟩)
  | listened =>
    have hle := hb.le hl
    cases hs : l.session with
    | none =>
      unfold Balanced at hb
      rw [hs] at hb
      subst hb
      exact .inl (.of_none rfl rfl)
    | some s => exact .inr ⟨by rw [hs]; rfl, rfl, hle⟩

/-- Every turn keeps the account, as long as the session lives. -/
theorem Turns.balanced {c : Call H} (h : Turns ops b c.method c.before (deeds c.trace) c.after)
    (hf : Frugal ops good) (hl : c.before.Sound) (hc : c.Regular ops good) (hb : Balanced ops good a r c.before) :
    Balanced ops good (a + acked b c.trace) (r + c.method.arrived.length) c.after := by
  have hdrawn : ∀ config name e, ⟨.newEngine config name, .ok e⟩ ∈ deeds c.trace → good e ∧ ops.buffered e = 0 :=
    fun config name e he => hc.drawn config name e (List.mem_filter.1 he).1
  have hret : returned c.method c.before = 0 := returned_eq_zero hc.refused
  rw [← acked_deeds]
  rcases h.accounted hf hl hdrawn hb with hb' | ⟨hsome, hnone, -⟩
  · rw [hret] at hb'
    exact hb'
  · have hlives := hc.lives hsome
    rw [hnone] at hlives
    cases hlives

/-- Whether a call is seen to be regular: nothing is refused that was acknowledged, no engine is drawn, no session
lost. -/
def Call.plainlyRegular (c : Call H) : Bool :=
  (match c.method, c.before.session with
    | .settled (.error _), some s => s.inFlight.getD 0 ≤ s.passedUnrecved
    | _, _ => true) &&
  (c.trace.all fun x =>
    match x.req with
    | .newEngine _ _ => false
    | _ => true) &&
  (c.before.session.isNone || c.after.session.isSome)

theorem Call.Regular.of_plainly {c : Call H} (h : c.plainlyRegular = true) : c.Regular ops good := by
  unfold Call.plainlyRegular at h
  simp only [Bool.and_eq_true] at h
  obtain ⟨⟨hr, hd⟩, hl⟩ := h
  refine ⟨fun f s n hm hs hf => ?_, fun config name e he => ?_, fun hs => ?_⟩
  · rw [hm, hs] at hr
    simpa [hf] using hr
  · have := List.all_eq_true.1 hd _ he
    cases this
  · cases hb : c.before.session with
    | none =>
      rw [hb] at hs
      cases hs
    | some s => simpa [hb] using hl

/-- **The account of a layer balances throughout its life.** Over any connection, in any order of calls and with any
answers, what was acknowledged below, what has arrived and is not opened, what was taken for the current record beyond
its plaintext, and the plaintext that is held or handed up, less the delivery that is out, are all that was received. -/
theorem Life.conserves {h : List (Call H)} (hl : Life ops b me l₀ h l) (hf : Frugal ops good)
    (h₀ : Fresh ops good l₀) (hm : ∀ c ∈ h, c.method.leaves = false) (hc : ∀ c ∈ h, c.Regular ops good)
    (hs : l.session = some s) :
    (acked b (h.flatMap (·.trace)) : Int) + s.rx.size + (s.bytesRead - s.bytesAppl) + s.rxApp.size +
      s.passedUnrecved - s.inFlight.getD 0 = (arrived h).length ∧ s.bytesAppl ≤ s.bytesRead := by
  have hb := (hl.keeps (P := fun h l => Balanced ops good (acked b (h.flatMap (·.trace))) (arrived h).length l)
    h₀.balanced h₀.sound hm hc fun h c hb hs hc ht _ => by
      simpa using ht.balanced hf hs hc hb).1.session hs
  have := hb.account
  have := hb.appl_le
  omega

/-- The account of a client after its exchange. -/
theorem Life.conserves_exchange : ∃ s, (Toy.left Toy.exchange).session = some s ∧
    (acked (H := Toy.host) Toy.below ((Toy.calls Toy.exchange).flatMap (·.trace)) : Int) + s.rx.size +
      (s.bytesRead - s.bytesAppl) + s.rxApp.size + s.passedUnrecved - s.inFlight.getD 0 =
      (arrived (H := Toy.host) (Toy.calls Toy.exchange)).length ∧ s.bytesAppl ≤ s.bytesRead := by
  have hlife := Toy.life Toy.exchange (by decide +kernel)
  have hfresh : Fresh (H := Toy.host) (Toy.ops (V := Unit)) (fun e => e.profile.inflate ≤ 1) Toy.client := fun s hs =>
    ⟨_, (Option.some.inj hs).symm, by decide, rfl⟩
  have hleaves : ∀ c ∈ Toy.calls Toy.exchange, c.method.leaves = false := by decide +kernel
  have hregular : ∀ c ∈ Toy.calls Toy.exchange, c.plainlyRegular = true := by decide +kernel
  have hsession : (Toy.left Toy.exchange).session.isSome := by decide +kernel
  obtain ⟨s, hs⟩ := Option.isSome_iff_exists.1 hsession
  exact ⟨s, hs, Life.conserves hlife Toy.frugal hfresh hleaves (fun c hc => .of_plainly (hregular c hc)) hs⟩

end Tls

end Conduit
