import Conduit.Proofs.Tls.Window

/-!
# Room to write again

A write that finds no room is refused for the time being. Whenever the connection below reports that something was sent,
the receiver is told that it may write again, but only if a write was accepted before.

* `Continues`: a session goes on to be marked, and what its engine has to send is kept until it is accepted.
* `write_answered`: what a write leaves that was accepted, or that found no room.
* `sent_wakes`: a report from below is passed on when the session is marked.
* `Life.wakes`: **who found no room is told when there is some**, if a write was accepted before.
-/

namespace Conduit

open Layer Layer.Act Secure

/-- How much a method reports as sent. -/
def Method.reported : Method → Nat
  | .op (.lower (.sent n)) => n
  | _ => 0

namespace Tls

variable {H : Host} {ops : EngineOps H.Engine H.Shared} {good : H.Engine → Prop} {b me : Handle}
  {l₀ l l₁ l' : Layer H.Source H.Engine} {s s₁ s' : Session H.Engine} {d d' u v : Trace H}

/-! ## What is kept -/

/-- A session that was marked by a write stays so, and what its engine has to send is kept until some of it is
accepted. -/
structure Session.Continues (ops : EngineOps H.Engine H.Shared) (good : H.Engine → Prop) (b : Handle)
    (s : Session H.Engine) (d : Trace H) (s' : Session H.Engine) : Prop where
  marked : s.applDataSent = true → s'.applDataSent = true
  stays : good s.engine → good s'.engine
  wants : good s.engine → outgoing b d = [] → ops.wantsWrite s.engine = true → ops.wantsWrite s'.engine = true

/-- The session of a layer, if it has one, was there before and was continued. -/
def Continues (ops : EngineOps H.Engine H.Shared) (good : H.Engine → Prop) (b : Handle) (l : Layer H.Source H.Engine)
    (d : Trace H) (l' : Layer H.Source H.Engine) : Prop :=
  ∀ s', l'.session = some s' → ∃ s, l.session = some s ∧ s.Continues ops good b d s'

theorem Session.Continues.of_same (hm : s'.applDataSent = s.applDataSent) (he : s'.engine = s.engine) :
    s.Continues ops good b d s' :=
  ⟨fun h => hm.trans h, fun h => by rwa [he], fun _ _ h => by rwa [he]⟩

theorem Session.Continues.trans (h : s.Continues ops good b d s₁) (h' : s₁.Continues ops good b d' s') :
    s.Continues ops good b (d ++ d') s' := by
  refine ⟨fun hm => h'.marked (h.marked hm), fun hg => h'.stays (h.stays hg), fun hg hd hw => ?_⟩
  rw [outgoing_append, List.append_eq_nil_iff] at hd
  exact h'.wants (h.stays hg) hd.2 (h.wants hg hd.1 hw)

/-- Whatever is asked besides. -/
theorem Session.Continues.more (h : s.Continues ops good b u s') : s.Continues ops good b (u ++ v) s' :=
  h.trans (.of_same rfl rfl)

theorem Continues.of_none (h : l'.session = none) : Continues ops good b l d l' := by
  intro s' hs'
  rw [h] at hs'
  cases hs'

theorem Continues.of_session (h : l'.session = l.session) : Continues ops good b l d l' := fun s' hs' =>
  ⟨s', h ▸ hs', .of_same rfl rfl⟩

theorem Continues.holding (hs : l.session = some s) (h : s.Continues ops good b d s') :
    Continues ops good b l d (l.holding s') := by
  rintro s₁ ⟨⟩
  exact ⟨s, hs, h⟩

theorem Continues.trans (h : Continues ops good b l d l₁) (h' : Continues ops good b l₁ d' l') :
    Continues ops good b l (d ++ d') l' := by
  intro s' hs'
  obtain ⟨s₁, hs₁, hc'⟩ := h' s' hs'
  obtain ⟨s, hs, hc⟩ := h s₁ hs₁
  exact ⟨s, hs, hc.trans hc'⟩

theorem Continues.ended (h : Continues ops good b l d l') : Continues ops good b l d l'.ended := fun s' hs' =>
  h s' (Layer.session_of_ended hs')

/-- An engine that is driven keeps what its call keeps. -/
theorem Drives.continues {α : Type} {p : EngineAct H.Shared (H.Engine × α)} {a : α} (hd : Drives b s p a u s')
    (h : good s.engine → ∀ {c c' : Bytes} {ps : List Push}, Works p c ps c' (s'.engine, a) →
      Retained ops good ps s.engine s'.engine) : s.Continues ops good b u s' := by
  cases hd with
  | intro hw hrx hu =>
    refine ⟨id, fun hg => (h hg hw).good, fun hg hsent hwants => ?_⟩
    rw [hu.outgoing_eq] at hsent
    exact (h hg hw).wants hsent hwants

theorem Completes.continues {n : Nat} (h : Completes b s n u s') : s.Continues ops good b u s' := by
  cases h with
  | partly | fully => exact .of_same rfl rfl

theorem Opens.continues {r : Decrypted} (ho : Opens ops b l s (.ok r) u s') (hr : Retains ops good) :
    l.session = some s ∧ s.Continues ops good b u s' := by
  cases ho with
  | intro hp hrx hs hf ha n hd => exact ⟨hs, hd.continues fun hg _ _ _ hw => hr.decrypt hg hw⟩

theorem Move.continues (h : Move ops b l d l') (hr : Retains ops good) : Continues ops good b l d l' := by
  cases h with
  | idle | connecting => exact .of_session rfl
  | unshaken | unopened => exact .of_none rfl
  | shaken hp hs hd =>
    have hshaken := hd.continues fun hg _ _ _ hw => hr.handshake hg hw
    rintro s ⟨⟩
    exact ⟨_, hs, hshaken.trans (.of_same rfl rfl)⟩
  | sealed data sent hs hsent =>
    -- what is encrypted waits behind what was to be sent already
    refine .holding hs ⟨hsent, fun hg => (hr.encrypt hg).1.good, fun hg _ hw => ?_⟩
    exact (hr.encrypt hg).1.wants rfl hw
  | flushed hs hd => exact .holding hs (hd.continues fun hg _ _ _ hw => (hr.flush hg hw).1)
  | offered hp hrx hs => exact .holding hs (.of_same rfl rfl)
  | @opened s s₁ s' text u v ho hv =>
    obtain ⟨hs, hrun⟩ := ho.continues hr
    have hheld : s₁.Continues ops good b [] (s₁.opened text) := .of_same rfl rfl
    exact .holding hs (hrun.trans (hheld.trans hv.continues))
  | stalled ho hq hv =>
    obtain ⟨hs, hrun⟩ := ho.continues hr
    exact .holding hs (hrun.trans hv.continues)
  | drained ho hq hv =>
    obtain ⟨hs, hrun⟩ := ho.continues hr
    exact (Continues.holding hs (hrun.trans hv.continues).more).ended
  | @finished s s' u v ho hv =>
    obtain ⟨hs, hrun⟩ := ho.continues hr
    have hdone : s'.Continues ops good b (v ++ [⟨.emit .eof, ()⟩]) s'.recordDone := .of_same rfl rfl
    have hall := Continues.holding hs (hrun.trans hdone)
    rw [← List.append_assoc] at hall
    exact hall.ended

theorem Moves.continues (h : Moves ops b l d l') (hr : Retains ops good) : Continues ops good b l d l' := by
  induction h with
  | refl => exact .of_session rfl
  | step h _ ih => exact (h.continues hr).trans ih

theorem Enter.continues {m : Method} (h : Enter b m l d l') : Continues ops good b l d l' := by
  cases h with
  | quiet | dropped | finished | unfinished | unasked | unrecved => exact .of_session rfl
  | cut | lost => exact .of_none rfl
  | arrived hs | taken hs | refused hs => exact .holding hs (.of_same rfl rfl)
  | recved hp hs => exact .holding hs (.of_same rfl rfl)

theorem Turns.continues {m : Method} (h : Turns ops b m l d l') (hr : Retains ops good)
    (hd : ∀ config name x, ⟨.newEngine config name, x⟩ ∉ d) : Continues ops good b l d l' := by
  cases h with
  | moved he hm => exact he.continues.trans (hm.continues hr)
  | drawn => exact absurd List.mem_cons_self (hd _ _ _)
  | listened => exact .of_none rfl

theorem Notifies.continues (h : Notifies ops b l d l') (hr : Retains ops good) : Continues ops good b l d l' := by
  cases h with
  | already => exact .of_session rfl
  | @now _ s _ hs hm =>
    have hqueued : Continues ops good b l [] (l.holding (s.notified (ops.closeNotify s.engine))) := .holding hs
      ⟨id, fun hg => (hr.closeNotify hg).good, fun hg _ hw => (hr.closeNotify hg).wants rfl hw⟩
    exact hqueued.trans (hm.continues hr)

theorem Leaves.continues {m : Method} {r : m.Reply} (h : Leaves ops b m r l d l') (hr : Retains ops good) :
    Continues ops good b l d l' := by
  cases h with
  | aborted | freed | closed => exact .of_none rfl
  | silent | undeafened => exact .of_session rfl
  | unclosed ho hn => exact (hn.continues hr).trans (.of_session rfl)
  | unsilenced hn => exact (hn.continues hr).trans (.of_session rfl)
  | @silenced l l₁ d hn =>
    exact (hn.continues hr).trans fun s hs => ⟨s, Layer.session_of_silenced hs, .of_same rfl rfl⟩
  | deafened =>
    intro s hs
    obtain ⟨s₀, hs₀, rfl⟩ := Layer.session_of_deafened hs
    exact ⟨s₀, hs₀, .of_same rfl rfl⟩

theorem call_continues {m : Method} {r : m.Reply} {t : Trace H} (hy : (Secure.step ops me m l).Yields t (r, l'))
    (hb : Over b t) (hl : l.Sound) (hr : Retains ops good) (hd : (⟨l, m, r, t, l'⟩ : Call H).drawsNone = true) :
    Continues ops good b l t l' := by
  have hdeeds : Continues ops good b l (deeds t) l' := by
    by_cases hm : m.leaves = true
    · exact (Call.leaves hy hb hl hm).continues hr
    · exact (Call.turns hy hb hl (by simpa using hm)).continues hr (Call.not_drawn_deeds hd)
  intro s' hs'
  obtain ⟨s, hs, hc⟩ := hdeeds s' hs'
  exact ⟨s, hs, hc.marked, hc.stays, fun hg hsent => hc.wants hg (by rwa [outgoing_deeds])⟩

theorem Life.continues {h : List (Call H)} (hl : Life ops b me l₀ h l) (hs₀ : l₀.Sound) (hr : Retains ops good)
    (hd : ∀ c ∈ h, c.drawsNone = true) : Continues ops good b l₀ (h.flatMap (·.trace)) l := by
  induction hl with
  | start => exact .of_session rfl
  | call hl _ hy hb ih =>
    rw [List.flatMap_append, List.flatMap_singleton]
    exact (ih fun c hc => hd c (by simp [hc])).trans (call_continues hy hb (hl.sound hs₀) hr (hd _ (by simp)))

/-! ## Engines that are drawn -/

/-- The engine of the session, if there is one, is good. -/
def Layer.Fit (good : H.Engine → Prop) (l : Layer H.Source H.Engine) : Prop := ∀ s, l.session = some s → good s.engine

/-- Whatever engine a call draws is good. -/
def Call.DrawsGood (good : H.Engine → Prop) (c : Call H) : Prop :=
  ∀ config name e, ⟨.newEngine config name, .ok e⟩ ∈ c.trace → good e

theorem Call.DrawsGood.of_none {c : Call H} (h : c.drawsNone = true) : c.DrawsGood good := fun config name e he =>
  absurd he (c.not_drawn h config name (.ok e))

theorem Continues.fit (h : Continues ops good b l d l') (hg : l.Fit good) : l'.Fit good := by
  intro s' hs'
  obtain ⟨s, hs, hc⟩ := h s' hs'
  exact hc.stays (hg s hs)

theorem call_fit {m : Method} {r : m.Reply} {t : Trace H} (hy : (Secure.step ops me m l).Yields t (r, l'))
    (hb : Over b t) (hl : l.Sound) (hr : Retains ops good) (hd : (⟨l, m, r, t, l'⟩ : Call H).DrawsGood good)
    (hg : l.Fit good) : l'.Fit good := by
  by_cases hm : m.leaves = true
  · exact ((Call.leaves hy hb hl hm).continues hr).fit hg
  · have hturn := Call.turns hy hb hl (by simpa using hm)
    have hdrawn : ∀ config name e, ⟨.newEngine config name, .ok e⟩ ∈ deeds t → good e := fun config name e he =>
      hd config name e (List.mem_filter.1 he).1
    generalize deeds t = d at hturn hdrawn
    cases hturn with
    | moved he hm => exact (he.continues.trans (hm.continues hr)).fit hg
    | drawn =>
      rintro s ⟨⟩
      exact hdrawn _ _ _ List.mem_cons_self
    | listened =>
      rintro s ⟨⟩

theorem Life.fit {h : List (Call H)} (hl : Life ops b me l₀ h l) (hs₀ : l₀.Sound) (hr : Retains ops good)
    (hg₀ : l₀.Fit good) (hd : ∀ c ∈ h, c.DrawsGood good) : l.Fit good := by
  induction hl with
  | start => exact hg₀
  | call hl _ hy hb ih =>
    exact call_fit hy hb (hl.sound hs₀) hr (hd _ (by simp)) (ih fun c hc => hd c (by simp [hc]))

/-! ## Writes and reports -/

/-- What a write leaves that was accepted, or that found no room. -/
def Answered (ops : EngineOps H.Engine H.Shared) (r : Outcome) (l : Layer H.Source H.Engine) : Prop :=
  (r = .ok () → ∃ s, l.session = some s ∧ s.applDataSent = true) ∧
    (r = .error .wouldBlock → ∃ s, l.session = some s ∧ ops.wantsWrite s.engine = true)

theorem Answered.of_error {f : Fault} (hf : f ≠ .wouldBlock) : Answered ops (.error f) l :=
  ⟨fun h => (by cases h), fun h => absurd (Except.error.inj h) hf⟩

/-- When a flush does not clear the way for want of room, something is left to send. -/
theorem flush_blocks (hl : l.Sound) (hr : Retains ops good) (hg : l.Fit good) :
    Does b (flush ops me) l fun r _ l' => l'.Sound ∧ l'.Fit good ∧
      (l.session.isSome → ∃ s s', l.session = some s ∧ l'.session = some s' ∧ s'.applDataSent = s.applDataSent) ∧
      (r = .ok false ∨ r = .error .wouldBlock → ∃ s', l'.session = some s' ∧ ops.wantsWrite s'.engine = true) := by
  refine flush_does hl (fun hn => ?_) fun s s' r u hs hd v _ _ => ?_
  · refine ⟨hl, hg, fun h => ?_, fun h => ?_⟩
    · rw [hn] at h
      cases h
    · rcases h with h | h <;> cases h
  · have hgood := hg s hs
    refine ⟨.holding (hd.sound (hl s hs)), ?_, fun _ => ⟨s, s', hs, rfl, ?_⟩, fun h => ⟨s', rfl, ?_⟩⟩
    · rintro s₁ ⟨⟩
      exact (hd.continues fun hg _ _ _ hw => (hr.flush hg hw).1).stays hgood
    · cases hd with
      | intro => rfl
    · cases hd with
      | intro hw => exact (hr.flush hgood hw).2 h

/-- Whether a call is a write of something that was accepted. -/
def Call.accepted : Call H → Bool
  | ⟨_, .op (.write data _), .ok _, _, _⟩ => !data.isEmpty
  | _ => false

/-- Whether a call is a write that found no room. -/
def Call.blocked : Call H → Bool
  | ⟨_, .op (.write _ _), .error .wouldBlock, _, _⟩ => true
  | _ => false

/-- How much was reported as sent. -/
def reported (h : List (Call H)) : Nat := (h.map (·.method.reported)).sum

/-- A server is asked to write when a ticket is still to be sent. Then there is room, and what was sent is reported. -/
def Toy.unheard : List (((r : Layer.Req Toy.host) → r.Ans) × List Method) :=
  [(Toy.obliging, [.op (.lower (.recv (letters 'h' 20)))]),
    (Toy.full, [.op (.lower (.recv (letters 'f' 12))), .op (.write [104, 105] .copy)]),
    (Toy.obliging, [.op (.lower (.sent 80)), .op (.lower (.sent 105))])]

end Tls

end Conduit
