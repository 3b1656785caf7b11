import Conduit.Proofs.Tls.Closing
import Conduit.Proofs.Tls.Conservation
import Mathlib.Algebra.GroupWithZero.Nat

/-!
# How much a TLS layer acknowledges

A delivery that is refused, or that is out when the read half is shut, is taken back from what was handed up. Where the
receiver had acknowledged it already, nothing is left to take back, and the same bytes are acknowledged again later.

* `forgiven`: how much is taken back that was acknowledged.
* `Life.acked_le`: **no more is acknowledged than was received and forgiven.**
* `Life.settles`: **once the read half is shut, what is not acknowledged was handed up**, if nothing was forgiven.
-/

namespace Conduit

open Layer

namespace Tls

variable {H : Host} {ops : EngineOps H.Engine H.Shared} {good : H.Engine → Prop} {b me : Handle}
  {l₀ l l' l'' : Layer H.Source H.Engine} {s : Session H.Engine} {d : Trace H} {a r : Nat}

/-- Engines whose notice that no more will be sent yields no plaintext. -/
def Parting {E V : Type} (ops : EngineOps E V) (good : E → Prop) : Prop :=
  ∀ {e : E}, good e → good (ops.closeNotify e) ∧ ops.buffered (ops.closeNotify e) ≤ ops.buffered e

/-- How much a call takes back of a delivery that the receiver has acknowledged. -/
def forgiven : (m : Method) → m.Reply → Layer H.Source H.Engine → Nat
  | .settled (.error _), _, l | .op (.shutdown .read), .ok (), l =>
    (l.session.map fun s => s.inFlight.getD 0 - s.passedUnrecved).getD 0
  | _, _, _ => 0

/-- How much a call takes back of a delivery that the receiver has acknowledged. -/
def Call.forgiven (c : Call H) : Nat := Tls.forgiven c.method c.reply c.before

theorem forgiven_of_stays {m : Method} (hm : m.leaves = false) (x : m.Reply) (l : Layer H.Source H.Engine) :
    forgiven m x l = returned m l := by
  cases m with
  | op o =>
    cases o with
    | shutdown => cases hm
    | _ => rfl
  | settled v =>
    cases v with
    | ok _ => rfl
    | error f => rfl
  | dealloc => rfl

/-! ## The account of a call -/

theorem Notifies.session_none (h : Notifies ops b l d l') (hl : l.session = none) : l'.session = none := by
  cases h with
  | already => exact hl
  | now hs => rw [hl] at hs; cases hs

/-- The notice that no more will be sent keeps the account, or loses the session. -/
theorem Notifies.balanced (h : Notifies ops b l d l') (hf : Frugal ops good) (hp : Parting ops good) (hl : l.Sound)
    (hb : Balanced ops good a r l) : Balanced ops good (a + acked b d) r l' ∨ Loses (a + acked b d) r l l' := by
  cases h with
  | already => exact .inl hb
  | now hs hm =>
    rename_i s
    have hacc := hb.session hs
    obtain ⟨hg, hle⟩ := hp hacc.good
    have hb₁ : Balanced ops good a r (l.holding (s.notified (ops.closeNotify s.engine))) := by
      refine .of_session rfl ⟨hacc.account, hg, hacc.appl_le, fun hr => ?_, fun hph => ?_⟩
      · exact Nat.le_trans (Nat.add_le_add_left hle _) (hacc.held_le hr)
      · obtain ⟨h₀, h₁⟩ := hacc.fresh hph
        exact ⟨h₀, Nat.le_zero.1 (h₁ ▸ hle)⟩
    rcases hm.balanced hf (.holding ((hl s hs).notified _)) hb₁ with hb' | ⟨-, hnone, hle⟩
    · exact .inl hb'
    · exact .inr ⟨by rw [hs]; rfl, hnone, hle⟩

/-- A layer without a session has a settled account, or has lost the session. -/
theorem Balanced.drop (hb : Balanced ops good a r l') (hl : l'.Sound) (hback : l.session = none → l'.session = none)
    (hn : l''.session = none) : Balanced ops good a r l'' ∨ Loses a r l l'' := by
  have hle := hb.le hl
  cases hs : l.session with
  | none =>
    unfold Balanced at hb
    rw [hback hs] at hb
    exact .inl (.of_none hn hb)
  | some s => exact .inr ⟨by rw [hs]; rfl, hn, hle⟩

/-- What is acknowledged when the read half is shut is all that is held; what was handed up is still to be
acknowledged. -/
theorem Session.Accounted.emptied (hb : s.Accounted ops good l a r) (hl : l'.rxState = .closed)
    (hp : l'.phase = l.phase) :
    s.emptied.Accounted ops good l' (a + s.holds) (r + (s.inFlight.getD 0 - s.passedUnrecved)) := by
  have hacc := hb.account
  have happ := hb.appl_le
  refine ⟨?_, hb.good, Nat.le_refl _, fun hr => absurd hl hr, fun hn => ⟨rfl, ?_⟩⟩
  · simp only [Session.emptied, Session.holds, Segments.size_empty, Option.getD_none]
    omega
  · exact (hb.fresh (hp ▸ hn)).2

/-- A method that ends a connection keeps the account, or loses the session. -/
theorem Leaves.accounted {m : Method} {x : m.Reply} (h : Leaves ops b m x l d l') (hf : Frugal ops good)
    (hp : Parting ops good) (hl : l.Sound) (hb : Balanced ops good a r l) :
    Balanced ops good (a + acked b d) (r + forgiven m x l) l' ∨ Loses (a + acked b d) (r + forgiven m x l) l l' := by
  -- what is asked besides acknowledges nothing
  have htail : ∀ {o : Op} {x : o.Reply} {u : Trace H}, o.isIdle = false → (∀ n, o ≠ .recved n) →
      acked b (⟨.ask b o, x⟩ :: u) = acked b u := by
    intro o x u _ hn
    cases o with
    | recved n => exact absurd rfl (hn n)
    | _ => exact Nat.zero_add _
  cases h with
  | aborted =>
    rw [htail rfl (by simp)]
    exact hb.drop hl id rfl
  | freed => exact hb.drop hl id rfl
  | @closed o ho x l l₁ d hn =>
    have h0 : forgiven (.op o) x l = 0 := by
      rcases ho with rfl | rfl <;> rfl
    rw [h0, acked_append, htail rfl (by simp)]
    rcases hn.balanced hf hp hl hb with hb₁ | ⟨hsome, -, hle⟩
    · exact hb₁.drop (hn.sound hl) hn.session_none rfl
    · exact .inr ⟨hsome, rfl, hle⟩
  | @unclosed o ho x l l₁ d f hn =>
    have h0 : forgiven (.op o) x l = 0 := by
      rcases ho with rfl | rfl <;> rfl
    rw [h0, acked_append, htail rfl (by simp)]
    exact hn.balanced hf hp hl hb
  | silent => exact .inl hb
  | @silenced l l₁ d hn =>
    rw [acked_append, htail rfl (by simp)]
    rcases hn.balanced hf hp hl hb with hb₁ | ⟨hsome, hnone, hle⟩
    · by_cases hr : l₁.rxState = .closed
      · exact hb₁.drop (hn.sound hl) hn.session_none (by simp [Layer.silenced, hr])
      · exact .inl (hb₁.of_layer (by simp [Layer.silenced, hr]) id id)
    · exact .inr ⟨hsome, by simp [Layer.silenced, hnone], hle⟩
  | @unsilenced l l₁ d f hn =>
    rw [acked_append, htail rfl (by simp)]
    exact hn.balanced hf hp hl hb
  | @deafened l u hu =>
    rw [htail rfl (by simp), hu.acked_eq]
    cases hs : l.session with
    | none =>
      unfold Balanced at hb
      rw [hs] at hb
      refine .inl (.of_none (by simp [Layer.deafened, hs]) ?_)
      simpa [forgiven, hs] using hb
    | some s =>
      have hb₁ : s.emptied.Accounted ops good l.deafened (a + s.holds) (r + (s.inFlight.getD 0 - s.passedUnrecved)) :=
        (hb.session hs).emptied rfl rfl
      have hle := hb₁.le s.sound_emptied
      simp only [forgiven, hs, Option.map_some, Option.getD_some]
      by_cases ht : l.txClosed = true
      · exact .inr ⟨by rw [hs]; rfl, by simp [Layer.deafened, ht], hle⟩
      · exact .inl (.of_session (by simp [Layer.deafened, ht, hs]) hb₁)
  | undeafened =>
    rw [htail rfl (by simp)]
    exact .inl hb

/-- An engine that is drawn holds nothing yet. -/
def Call.DrawsEmpty (ops : EngineOps H.Engine H.Shared) (good : H.Engine → Prop) (c : Call H) : Prop :=
  ∀ config name e, ⟨.newEngine config name, .ok e⟩ ∈ c.trace → good e ∧ ops.buffered e = 0

/-- Whether a call is seen to draw no engine. -/
def Call.drawsNone (c : Call H) : Bool := c.trace.all fun x =>
  match x.req with
  | .newEngine _ _ => false
  | _ => true

theorem Call.not_drawn {c : Call H} (h : c.drawsNone = true) (config : Config H.Source) (name : Option ServerName)
    (x : Except Fault H.Engine) : ⟨.newEngine config name, x⟩ ∉ c.trace := by
  intro hmem
  have hdrawn := List.all_eq_true.1 h _ hmem
  cases hdrawn

theorem Call.not_drawn_deeds {c : Call H} (h : c.drawsNone = true) (config : Config H.Source) (name : Option ServerName)
    (x : Except Fault H.Engine) : ⟨.newEngine config name, x⟩ ∉ deeds c.trace := fun hmem =>
  c.not_drawn h config name x (List.mem_filter.1 hmem).1

theorem Call.DrawsEmpty.of_none {c : Call H} (h : c.drawsNone = true) : c.DrawsEmpty ops good := fun config name e he =>
  absurd he (c.not_drawn h config name (.ok e))

/-- **The account of a call.** Whatever is called, the account is kept, or the session lost. -/
theorem call_accounted {m : Method} {x : m.Reply} {t : Trace H} (hy : (Secure.step ops me m l).Yields t (x, l'))
    (ho : Over b t) (hf : Frugal ops good) (hp : Parting ops good) (hl : l.Sound)
    (hd : (⟨l, m, x, t, l'⟩ : Call H).DrawsEmpty ops good) (hb : Balanced ops good a r l) :
    (Balanced ops good (a + acked b t) (r + m.arrived.length + forgiven m x l) l' ∨
      Loses (a + acked b t) (r + m.arrived.length + forgiven m x l) l l') ∧ l'.Sound := by
  rw [← acked_deeds]
  by_cases hm : m.leaves = true
  · have hleave := Call.leaves hy ho hl hm
    have h0 : m.arrived = [] := by
      unfold Method.arrived
      split
      · cases hm
      · rfl
    rw [h0]
    exact ⟨hleave.accounted hf hp hl hb, hleave.sound hl⟩
  · have hm : m.leaves = false := by simpa using hm
    have hturn := Call.turns hy ho hl hm
    have hdrawn : ∀ config name e, ⟨.newEngine config name, .ok e⟩ ∈ deeds t → good e ∧ ops.buffered e = 0 :=
      fun config name e he => hd config name e (List.mem_filter.1 he).1
    rw [forgiven_of_stays hm]
    exact ⟨hturn.accounted hf hl hdrawn hb, hturn.sound hl⟩

/-! ## What is acknowledged in a life -/

/-- **No more is acknowledged than was received and forgiven.** Whatever is called, in any order and with any answers,
what a layer acknowledges below is at most what it has received, and what it has taken back of deliveries that had been
acknowledged. -/
theorem Life.acked_le {h : List (Call H)} (hl : Life ops b me l₀ h l) (hf : Frugal ops good) (hp : Parting ops good)
    (h₀ : Fresh ops good l₀) (hd : ∀ c ∈ h, c.DrawsEmpty ops good) :
    acked b (h.flatMap (·.trace)) ≤ (arrived h).length + (h.map Call.forgiven).sum := by
  -- a session that is lost takes what it held with it, so of what was received only a part stays in the account
  have key : l.Sound ∧ ∃ r, r ≤ (arrived h).length + (h.map Call.forgiven).sum ∧
      Balanced ops good (acked b (h.flatMap (·.trace))) r l := by
    induction hl with
    | start => exact ⟨h₀.sound, 0, Nat.zero_le _, h₀.balanced⟩
    | @call h l l' m x t hl hfree hy ho ih =>
      obtain ⟨hs, r, hr, hb⟩ := ih fun c hc => hd c (by simp [hc])
      obtain ⟨hcase, hs'⟩ := call_accounted hy ho hf hp hs (hd _ (by simp)) hb
      refine ⟨hs', ?_⟩
      let c : Call H := ⟨l, m, x, t, l'⟩
      have hacked : acked b ((h ++ [c]).flatMap (·.trace)) = acked b (h.flatMap (·.trace)) + acked b t := by
        simp [acked_append, c]
      have hsum : (arrived (h ++ [c])).length + ((h ++ [c]).map Call.forgiven).sum =
          (arrived h).length + (h.map Call.forgiven).sum + m.arrived.length + forgiven m x l := by
        simp only [arrived_append, arrived_singleton, List.length_append, List.map_append, List.sum_append,
          List.map_cons, List.map_nil, List.sum_cons, List.sum_nil, Call.forgiven, c]
        omega
      rw [hacked, hsum]
      rcases hcase with hb' | ⟨-, hnone, hle⟩
      · exact ⟨_, by omega, hb'⟩
      · exact ⟨_, by omega, .of_none hnone rfl⟩
  obtain ⟨hs, r, hr, hb⟩ := key
  exact Nat.le_trans (hb.le hs) hr

/-- The client of `Toy.exchange`; the two bytes are acknowledged, and then refused, twice. -/
def Toy.overdrawn : List Method :=
  Toy.exchange.take 2 ++
    [.op (.recved 2), .settled (.error .wouldBlock), .op (.lower .poll), .op (.recved 2), .settled (.error .wouldBlock)]

/-- The engines of `Toy.client` yield no more than they take, nor does their last notice. -/
theorem Toy.parting : Parting (Toy.ops (V := Unit)) fun e => e.profile.inflate ≤ 1 := fun hg => ⟨hg, Nat.le_refl _⟩

theorem Toy.fresh_client :
    Fresh (H := Toy.host) (Toy.ops (V := Unit)) (fun e => e.profile.inflate ≤ 1) Toy.client := fun _ hs =>
  ⟨_, (Option.some.inj hs).symm, by decide, rfl⟩

/-- What the client of `Toy.overdrawn` acknowledges is at most what it has received and forgiven. -/
theorem Life.acked_le_overdrawn : acked (H := Toy.host) Toy.below ((Toy.calls Toy.overdrawn).flatMap (·.trace)) ≤
    (arrived (H := Toy.host) (Toy.calls Toy.overdrawn)).length +
      ((Toy.calls Toy.overdrawn).map (Call.forgiven (H := Toy.host))).sum := by
  have hlife := Toy.life Toy.overdrawn (by decide +kernel)
  have hregular : ∀ c ∈ Toy.calls Toy.overdrawn, c.drawsNone = true := by decide +kernel
  exact Life.acked_le hlife Toy.frugal Toy.parting Toy.fresh_client fun c hc => .of_none (hregular c hc)

/-- What is acknowledged and then refused is acknowledged again, and more than was received. -/
theorem Life.acked_twice : Life (H := Toy.host) (Toy.ops (V := Unit)) Toy.below Toy.me Toy.client
      (Toy.calls Toy.overdrawn) (Toy.left Toy.overdrawn) ∧
    (arrived (H := Toy.host) (Toy.calls Toy.overdrawn)).length <
      acked (H := Toy.host) Toy.below ((Toy.calls Toy.overdrawn).flatMap (·.trace)) := by
  have hlife := Toy.life Toy.overdrawn (by decide +kernel)
  have hmore : (arrived (H := Toy.host) (Toy.calls Toy.overdrawn)).length <
      acked (H := Toy.host) Toy.below ((Toy.calls Toy.overdrawn).flatMap (·.trace)) := by decide +kernel
  exact ⟨hlife, hmore⟩

/-! ## After the read half is shut -/

/-- The read half is shut, and nothing is held. -/
structure Deaf (l : Layer H.Source H.Engine) : Prop where
  rxState : l.rxState = .closed
  holds : ∀ s, l.session = some s → s.rx.size = 0 ∧ s.rxApp.size = 0 ∧ s.bytesRead = 0 ∧ s.bytesAppl = 0 ∧
    s.inFlight = none

theorem deaf_deafened (l : Layer H.Source H.Engine) : Deaf l.deafened := by
  refine ⟨rfl, fun s hs => ?_⟩
  obtain ⟨s', -, rfl⟩ := Layer.session_of_deafened hs
  exact ⟨rfl, rfl, rfl, rfl, rfl⟩

theorem Deaf.of_none (hr : l.rxState = .closed) (hs : l.session = none) : Deaf l :=
  ⟨hr, fun s h => by rw [hs] at h; cases h⟩

/-- An engine that is run over nothing takes nothing. -/
theorem Deaf.drives {α : Type} {p : EngineAct H.Shared (H.Engine × α)} {x : α} {s' : Session H.Engine}
    (h : Deaf l) (hl : l.Sound) (hs : l.session = some s) (hd : Drives b s p x d s') :
    s'.rx.size = 0 ∧ s'.rxApp.size = 0 ∧ s'.bytesRead = 0 ∧ s'.bytesAppl = 0 ∧ s'.inFlight = none := by
  obtain ⟨hrx, happ, hread, hbytes, hfl⟩ := h.holds s hs
  obtain ⟨hsum, -⟩ := hd.size_add (hl s hs).rx
  obtain ⟨happ', hbytes', -, hfl'⟩ := hd.frame
  refine ⟨by omega, ?_, by omega, ?_, ?_⟩
  · rw [happ', happ]
  · rw [hbytes', hbytes]
  · rw [hfl', hfl]

theorem Move.deaf (h : Move ops b l d l') (hl : l.Sound) (hd : Deaf l) : Deaf l' := by
  have hclosed := hd.rxState
  cases h with
  | idle => exact hd
  | connecting => exact ⟨hclosed, hd.holds⟩
  | shaken hp hs hdr =>
    obtain ⟨hrx, happ, -, hbytes, hfl⟩ := hd.drives hl hs hdr
    refine ⟨hclosed, ?_⟩
    rintro s ⟨⟩
    exact ⟨hrx, happ, rfl, hbytes, hfl⟩
  | unshaken | unopened => exact .of_none rfl rfl
  | sealed data sent hs =>
    have hheld := hd.holds _ hs
    refine ⟨hclosed, ?_⟩
    rintro s ⟨⟩
    exact hheld
  | flushed hs hdr =>
    refine ⟨hclosed, ?_⟩
    rintro s ⟨⟩
    exact hd.drives hl hs hdr
  | offered hp hr => exact absurd hclosed hr
  | opened ho | stalled ho | drained ho | finished ho =>
    cases ho with
    | intro hp hr => exact absurd hclosed hr

theorem Moves.deaf (h : Moves ops b l d l') (hl : l.Sound) (hd : Deaf l) : Deaf l' := by
  induction h with
  | refl => exact hd
  | step h _ ih => exact ih (h.sound hl) (h.deaf hl hd)

theorem Enter.deaf {m : Method} (h : Enter b m l d l') (hd : Deaf l) : Deaf l' := by
  have hclosed := hd.rxState
  cases h with
  | quiet | dropped | unfinished | unasked | unrecved => exact hd
  | arrived hs hr => exact absurd hclosed hr
  | finished hp hr => rw [hclosed] at hr; cases hr
  | cut | lost => exact .of_none hclosed rfl
  | taken hs hf | refused hs hf =>
    -- a delivery is never out
    rw [(hd.holds _ hs).2.2.2.2] at hf
    cases hf
  | recved hp hs =>
    have hheld := hd.holds _ hs
    refine ⟨hclosed, ?_⟩
    rintro s ⟨⟩
    exact hheld

theorem Turns.deaf {m : Method} (h : Turns ops b m l d l') (hl : l.Sound) (hd : Deaf l) : Deaf l' := by
  cases h with
  | moved he hm => exact hm.deaf (he.sound hl) (he.deaf hd)
  | drawn =>
    refine ⟨hd.rxState, ?_⟩
    rintro s ⟨⟩
    exact ⟨rfl, rfl, rfl, rfl, rfl⟩
  | listened => exact .of_none hd.rxState rfl

theorem Notifies.deaf (h : Notifies ops b l d l') (hl : l.Sound) (hd : Deaf l) : Deaf l' := by
  cases h with
  | already => exact hd
  | now hs hm =>
    have hheld := hd.holds _ hs
    refine hm.deaf (.holding ((hl _ hs).notified _)) ⟨hd.rxState, ?_⟩
    rintro s ⟨⟩
    exact hheld

theorem Leaves.deaf {m : Method} {x : m.Reply} (h : Leaves ops b m x l d l') (hl : l.Sound) (hd : Deaf l) :
    Deaf l' := by
  cases h with
  | aborted | freed => exact .of_none hd.rxState rfl
  | closed => exact .of_none rfl rfl
  | unclosed _ hn | unsilenced hn => exact hn.deaf hl hd
  | silent | undeafened => exact hd
  | silenced hn =>
    have hd₁ := hn.deaf hl hd
    exact .of_none hd₁.rxState (by simp [Layer.silenced, hd₁.rxState])
  | deafened => exact deaf_deafened l

/-- A layer that has shut its read half stays so. -/
theorem call_deaf {m : Method} {x : m.Reply} {t : Trace H} (hy : (Secure.step ops me m l).Yields t (x, l'))
    (ho : Over b t) (hl : l.Sound) (hd : Deaf l) : Deaf l' := by
  by_cases hm : m.leaves = true
  · exact (Call.leaves hy ho hl hm).deaf hl hd
  · exact (Call.turns hy ho hl (by simpa using hm)).deaf hl hd

/-- What is asked of a call: it forgives nothing, an engine that is drawn holds nothing yet, and the session lives
on. -/
structure Call.Careful (ops : EngineOps H.Engine H.Shared) (good : H.Engine → Prop) (c : Call H) : Prop where
  forgives : c.forgiven = 0
  draws : c.DrawsEmpty ops good
  lives : c.before.session.isSome → c.after.session.isSome

/-- What careful calls do keeps the account exactly. -/
theorem Life.balanced {h : List (Call H)} (hl : Life ops b me l₀ h l) (hf : Frugal ops good) (hp : Parting ops good)
    (h₀ : Fresh ops good l₀) (hc : ∀ c ∈ h, c.Careful ops good) :
    Balanced ops good (acked b (h.flatMap (·.trace))) (arrived h).length l ∧ l.Sound := by
  induction hl with
  | start => exact ⟨h₀.balanced, h₀.sound⟩
  | @call h l l' m x t hl hfree hy ho ih =>
    obtain ⟨hb, hs⟩ := ih fun c hc' => hc c (by simp [hc'])
    have hcare : (⟨l, m, x, t, l'⟩ : Call H).Careful ops good := hc _ (by simp)
    have h0 : forgiven m x l = 0 := hcare.forgives
    obtain ⟨hcase, hs'⟩ := call_accounted hy ho hf hp hs hcare.draws hb
    rw [h0] at hcase
    refine ⟨?_, hs'⟩
    rcases hcase with hb' | ⟨hsome, hnone, -⟩
    · simpa [acked_append] using hb'
    · have hlives : l'.session.isSome := hcare.lives hsome
      rw [hnone] at hlives
      cases hlives

/-- Whether a call shuts the read half. -/
def Call.shutsRead : Call H → Bool
  | ⟨_, .op (.shutdown .read), .ok (), _, _⟩ => true
  | _ => false

theorem Life.deaf {h : List (Call H)} (hl : Life ops b me l₀ h l) (h₀ : l₀.Sound)
    (hr : ∃ c ∈ h, c.shutsRead = true) : Deaf l ∧ l.Sound := by
  -- soundness is needed of every state on the way, also before the read half is shut
  suffices hall : l.Sound ∧ ((∃ c ∈ h, c.shutsRead = true) → Deaf l) from ⟨hall.2 hr, hall.1⟩
  clear hr
  induction hl with
  | start => exact ⟨h₀, fun ⟨c, hc, _⟩ => absurd hc (by simp)⟩
  | @call h l l' m x t hl hfree hy ho ih =>
    obtain ⟨hs, hdeaf⟩ := ih
    refine ⟨?_, ?_⟩
    · by_cases hm : m.leaves = true
      · exact (Call.leaves hy ho hs hm).sound hs
      · exact (Call.turns hy ho hs (by simpa using hm)).sound hs
    · rintro ⟨c, hc, hcr⟩
      rcases List.mem_append.1 hc with hc | hc
      · exact call_deaf hy ho hs (hdeaf ⟨c, hc, hcr⟩)
      · rw [List.mem_singleton.1 hc] at hcr
        unfold Call.shutsRead at hcr
        split at hcr
        · rename_i heq
          cases heq
          have hleave := Call.leaves hy ho hs rfl
          generalize deeds t = d at hleave
          cases hleave with
          | closed hor | unclosed hor => rcases hor with h | h <;> cases h
          | deafened => exact deaf_deafened l
        · cases hcr

/-- **Once the read half is shut, what is not acknowledged was handed up.** When the read half was shut at some time in
a life in which nothing is forgiven, be it while a delivery was out, all that was received until now is acknowledged
below, or was handed up and is not acknowledged by the receiver. -/
theorem Life.settles {h : List (Call H)} (hl : Life ops b me l₀ h l) (hf : Frugal ops good) (hp : Parting ops good)
    (h₀ : Fresh ops good l₀) (hc : ∀ c ∈ h, c.Careful ops good) (hr : ∃ c ∈ h, c.shutsRead = true)
    (hs : l.session = some s) :
    acked b (h.flatMap (·.trace)) + s.passedUnrecved = (arrived h).length := by
  have hb := (hl.balanced hf hp h₀ hc).1.session hs
  obtain ⟨hdeaf, -⟩ := hl.deaf h₀.sound hr
  obtain ⟨hrx, happ, hread, hbytes, hfl⟩ := hdeaf.holds s hs
  have hacc := hb.account
  rw [hrx, happ, hread, hbytes, hfl] at hacc
  simpa using hacc

/-- Whether a call is seen to be careful. -/
def Call.plainlyCareful (c : Call H) : Bool :=
  c.forgiven == 0 && c.drawsNone && (c.before.session.isNone || c.after.session.isSome)

theorem Call.Careful.of_plainly {c : Call H} (h : c.plainlyCareful = true) : c.Careful ops good := by
  unfold Call.plainlyCareful at h
  simp only [Bool.and_eq_true, beq_iff_eq] at h
  obtain ⟨⟨h0, hd⟩, hl⟩ := h
  refine ⟨h0, .of_none hd, fun hs => ?_⟩
  cases hb : c.before.session with
  | none =>
    rw [hb] at hs
    cases hs
  | some s => simpa [hb] using hl

/-- The client of `Toy.exchange`; the read half is shut while a delivery of two bytes is out, and ciphertext arrives
later. -/
def Toy.turnedAway : List Method :=
  Toy.exchange.take 2 ++ [.op (.shutdown .read), .op (.lower (.recv (letters 'z' 4))), .op (.recved 5)]

theorem Life.settles_turnedAway : ∃ s, (Toy.left Toy.turnedAway).session = some s ∧
    acked (H := Toy.host) Toy.below ((Toy.calls Toy.turnedAway).flatMap (·.trace)) + s.passedUnrecved =
      (arrived (H := Toy.host) (Toy.calls Toy.turnedAway)).length := by
  have hlife := Toy.life Toy.turnedAway (by decide +kernel)
  have hcareful : ∀ c ∈ Toy.calls Toy.turnedAway, c.plainlyCareful = true := by decide +kernel
  have hshut : ∃ c ∈ Toy.calls Toy.turnedAway, c.shutsRead = true := by decide +kernel
  have hsession : (Toy.left Toy.turnedAway).session.isSome := by decide +kernel
  obtain ⟨s, hs⟩ := Option.isSome_iff_exists.1 hsession
  exact ⟨s, hs, Life.settles hlife Toy.frugal Toy.parting Toy.fresh_client
    (fun c hc => .of_plainly (hcareful c hc)) hshut hs⟩

/-- The same, but one of the two bytes is acknowledged before the read half is shut. -/
def Toy.halfAcknowledged : List Method := Toy.exchange.take 2 ++ [.op (.recved 1), .op (.shutdown .read)]

/-- What was acknowledged of a delivery that is out is acknowledged again when the read half is shut. -/
theorem Life.settles_twice : Life (H := Toy.host) (Toy.ops (V := Unit)) Toy.below Toy.me Toy.client
      (Toy.calls Toy.halfAcknowledged) (Toy.left Toy.halfAcknowledged) ∧
    (∃ c ∈ Toy.calls Toy.halfAcknowledged, c.shutsRead = true) ∧ (Toy.left Toy.halfAcknowledged).txClosed = false ∧
    (Toy.left Toy.halfAcknowledged).session.isSome ∧
    acked (H := Toy.host) Toy.below ((Toy.calls Toy.halfAcknowledged).flatMap (·.trace)) +
        (Toy.left Toy.halfAcknowledged).unacknowledged =
      (arrived (H := Toy.host) (Toy.calls Toy.halfAcknowledged)).length + 1 := by
  have hlife := Toy.life Toy.halfAcknowledged (by decide +kernel)
  refine ⟨hlife, by decide +kernel, by decide +kernel, by decide +kernel, ?_⟩
  decide +kernel

end Tls

end Conduit
