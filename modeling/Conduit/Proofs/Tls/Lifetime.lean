import Conduit.Proofs.Tls.Gate
import Conduit.Proofs.Tls.Obliging
import Conduit.Proofs.Tls.Shapes

/-!
# The lifetime of a TLS session

* `Shape.Lasting`: a session is there as long as it is of use.
* `Shape.Turn.lasting`: what a method makes of such a layer is such a layer, unless a session is made that comes too late.
* `Call.Belated`: a client is asked to connect when its session has come and gone.
* `Past.session_lasts`: **a session is there as long as it is of use, and does not come back once it is dropped**, unless a
  client is asked to connect again.
-/

namespace Conduit

open Layer

namespace Tls

namespace Shape

variable {s s' : Shape}

/-- Both halves are closed. -/
def Shut (s : Shape) : Prop := s.rxState = .closed ∧ s.txClosed = true

instance : Decidable s.Shut := inferInstanceAs (Decidable (_ ∧ _))

/-- A session is there until both halves are closed, the session has failed or the layer listens. -/
structure Lasting (s : Shape) : Prop where
  shut : s.Shut → s.lives = false
  vain : s.phase = .failed ∨ s.phase = .listening → s.lives = false
  used : s.phase = .established → ¬ s.Shut → s.lives = true

/-- A client that never had a session. -/
structure Young (s : Shape) : Prop where
  client : s.isServer = false
  phase : s.phase = .handshaking
  lives : s.lives = false

/-! ## Work -/

theorem Step.lasting (h : Step s s') (hs : s.Lasting) : s'.Lasting := by
  cases h with
  | established hp hl =>
    exact ⟨hs.shut, by simp, fun _ _ => hl⟩
  | broken => exact ⟨fun _ => rfl, fun _ => rfl, by simp⟩
  | queued hp hr =>
    refine ⟨fun h => (nomatch h.1), by simp [hp], fun _ _ => hs.used hp fun h => ?_⟩
    exact nomatch hr.symm.trans h.1
  | ended hp hr hl =>
    refine ⟨fun h => ?_, by simp [Shape.ended, hp], fun _ h => ?_⟩
    · simp [Shape.ended, show s.txClosed = true from h.2]
    · simp only [Shut, Shape.ended, true_and, Bool.not_eq_true] at h
      simp [Shape.ended, hl, h]

theorem Steps.lasting (h : Steps s s') (hs : s.Lasting) : s'.Lasting := by
  induction h with
  | refl => exact hs
  | tail _ h ih => exact h.lasting ih

theorem Step.lives (h : Step s s') (hl : s.lives = false) : s'.lives = false := by
  cases h with
  | established _ h => rw [hl] at h; cases h
  | broken => rfl
  | queued => exact hl
  | ended => simp [Shape.ended, hl]

/-- No work makes a session. -/
theorem Steps.lives (h : Steps s s') (hl : s.lives = false) : s'.lives = false := by
  induction h with
  | refl => exact hl
  | tail _ h ih => exact h.lives ih

theorem Steps.isServer (h : Steps s s') : s'.isServer = s.isServer := by
  induction h with
  | refl => rfl
  | tail _ h ih => cases h <;> exact ih

/-- Without a session a layer does not work. -/
theorem Steps.young (h : Steps s s') (hs : s.Young) : s' = s := by
  induction h with
  | refl => rfl
  | tail _ h ih =>
    rw [ih] at h
    cases h with
    | established _ h => rw [hs.lives] at h; cases h
    | broken _ h => rw [hs.lives] at h; cases h
    | queued h => rw [hs.phase] at h; cases h
    | ended h => rw [hs.phase] at h; cases h

/-! ## Methods -/

variable {m : Method} {r : m.Reply} {flag : Bool}

theorem Turn.isServer (h : Turn m r s flag s') : s'.isServer = s.isServer := by
  cases h with
  | worked _ _ h => exact h.isServer
  | _ => rfl

/-- Only a client makes a session, and only when it connects. -/
theorem Turn.lives (h : Turn m r s flag s') (hl : s.lives = false) :
    s'.lives = false ∨ s.isServer = false ∧ ∃ a, m = .op (.connect a) := by
  cases h with
  | worked _ _ h => exact .inl (h.lives hl)
  | unanswered => exact .inl hl
  | lost | listened | dropped | closed => exact .inl rfl
  | kept | unopened => exact .inl hl
  | silenced => exact .inl (by simp [Shape.silenced, hl])
  | deafened => exact .inl (by simp [Shape.ended, hl])
  | opened h | baseless h | spurned h => exact .inr ⟨h, _, rfl⟩

/-- A client that never had a session stays as it is, but for its halves, until it has one. -/
theorem Turn.phase_young (h : Turn m r s flag s') (hs : s.Young) : s'.phase = .handshaking := by
  have hp := hs.phase
  cases h with
  | worked _ _ h => rw [h.young hs, hp]
  | listened h => rw [hs.client] at h; cases h
  | _ => exact hp

/-- **What a method makes of a layer whose session is there as long as it is of use is such a layer**, unless the
connection goes, or a session is made when the halves are closed, or after the handshake. -/
theorem Turn.lasting (h : Turn m r s false s') (hs : s.Lasting) (ha : m ≠ .op .abort) (hd : m ≠ .dealloc)
    (hc : ∀ a, m = .op (.connect a) → s.isServer = false → s.lives = true ∨ s.phase = .handshaking ∧ ¬ s.Shut) :
    s'.Lasting := by
  -- with a session that is of use
  have hlives : ∀ a, m = .op (.connect a) → s.isServer = false → ∀ k,
      Lasting { s with lives := true, connecting := k } := by
    intro a hm hclient k
    rcases hc a hm hclient with hl | ⟨hp, hshut⟩
    · exact ⟨fun h => hl ▸ hs.shut h, fun h => hl ▸ hs.vain h, fun _ _ => rfl⟩
    · exact ⟨fun h => absurd h hshut, by simp [hp], fun _ _ => rfl⟩
  generalize hflag : false = flag at h
  cases h with
  | worked _ _ h => exact h.lasting hs
  | unanswered => exact ⟨hs.shut, hs.vain, hs.used⟩
  | lost | closed => cases hflag
  | listened => exact ⟨fun _ => rfl, fun _ => rfl, by simp⟩
  | dropped hm => exact absurd hm (not_or.2 ⟨ha, hd⟩)
  | kept | unopened => exact hs
  | silenced =>
    refine ⟨fun h => ?_, fun h => by simp [Shape.silenced, hs.vain h], fun hp h => ?_⟩
    · simp [Shape.silenced, show s.rxState = .closed from h.1]
    · have hr : s.rxState ≠ .closed := fun hr => h ⟨hr, rfl⟩
      have hl := hs.used hp fun h => hr h.1
      simp [Shape.silenced, hl, hr]
  | deafened =>
    refine ⟨fun h => ?_, fun h => by simp [Shape.ended, hs.vain h], fun hp h => ?_⟩
    · simp [Shape.ended, show s.txClosed = true from h.2]
    · have ht : s.txClosed ≠ true := fun ht => h ⟨rfl, ht⟩
      have hl := hs.used hp fun h => ht h.2
      simp [Shape.ended, hl, ht]
  | opened h => exact hlives _ rfl h true
  | baseless h => exact hlives _ rfl h s.connecting
  | spurned h => exact hlives _ rfl h false

end Shape

variable {H : Host} {ops : EngineOps H.Engine H.Shared} {me : Handle} {l₀ l l' : Layer H.Source H.Engine}
  {h : List (Call H)}

/-! ## Layers -/

theorem Layer.Blank.lasting (h : l.Blank) : l.shape.Lasting := by
  refine ⟨fun hs => ?_, fun hp => ?_, fun hp => ?_⟩
  · have hr : l.rxState = .closed := hs.1
    rw [h.rxState] at hr
    cases hr
  · have hp : l.phase = .failed ∨ l.phase = .listening := hp
    simp [h.phase] at hp
  · have hp : l.phase = .established := hp
    rw [h.phase] at hp
    cases hp

/-- The session of a layer is there as long as it is of use. -/
structure Layer.Lasting {S E : Type} (l : Layer S E) : Prop where
  established : l.phase = .established → (l.session.isSome ↔ ¬ (l.rxState = .closed ∧ l.txClosed = true))
  vain : l.phase = .failed ∨ l.phase = .listening → l.session = none

theorem Shape.Lasting.layer (h : l.shape.Lasting) : l.Lasting := by
  refine ⟨fun hp => ⟨fun hl hshut => ?_, h.used hp⟩, fun hp => ?_⟩
  · have hnone : l.session.isSome = false := h.shut hshut
    rw [hnone] at hl
    cases hl
  · have hnone : l.session.isSome = false := h.vain hp
    simpa using hnone

/-- What was agreed is known as long as there is a session. -/
theorem Layer.sessionInfo_eq_none {S E V : Type} {ops : EngineOps E V} {l : Layer S E} :
    l.sessionInfo ops = none ↔ l.session = none := by
  simp [Layer.sessionInfo]

/-! ## Calls -/

/-- A call after which the layer is gone. -/
def Call.quits (c : Call H) : Bool :=
  match c.method with
  | .op .abort | .dealloc => true
  | _ => frees c.trace

theorem Call.stays {c : Call H} (h : c.quits = false) :
    frees c.trace = false ∧ c.method ≠ .op .abort ∧ c.method ≠ .dealloc := by
  unfold Call.quits at h
  split at h
  · cases h
  · cases h
  · rename_i ha hd
    exact ⟨h, ha, hd⟩

/-- A client without a session is asked to connect. -/
def Call.begins (c : Call H) : Bool :=
  match c.method with
  | .op (.connect _) => !c.before.config.isServer && c.before.session.isNone
  | _ => false

/-- It is so when it has had a session before, or has closed both of its halves. -/
def Call.Belated (past : List (Call H)) (c : Call H) : Prop :=
  c.begins = true ∧ ((∃ d ∈ past, d.before.session.isSome = true) ∨ c.before.shape.Shut)

theorem Call.begins_eq {a : Endpoint} {r : Outcome} {t : Trace H} (hs : l.config.isServer = false) (hn : l.session = none) :
    (⟨l, .op (.connect a), r, t, l'⟩ : Call H).begins = true := by
  simp [Call.begins, hs, hn]

/-- A session comes only when a client connects. -/
theorem Call.comes {m : Method} {r : m.Reply} {t : Trace H} (hy : (Secure.step ops me m l).Yields t (r, l'))
    (hn : l.session = none) : l'.session = none ∨ (⟨l, m, r, t, l'⟩ : Call H).begins = true := by
  rcases (Call.turn hy).lives (by simp [Layer.shape, hn]) with hl | ⟨hclient, a, rfl⟩
  · exact .inl (by simpa [Layer.shape] using hl)
  · exact .inr (begins_eq hclient hn)

/-! ## Lives -/

/-- What is known of a layer after some calls, none of which came too late. -/
structure Timely (h : List (Call H)) (l : Layer H.Source H.Engine) : Prop where
  lasting : l.shape.Lasting
  /-- A client that never had a session has not gone on. -/
  young : l.config.isServer = false → (∀ d ∈ h, d.before.session = none) → l.session = none → l.phase = .handshaking
  /-- A session that was dropped does not come back. -/
  gone : ∀ past c future, h = past ++ c :: future → c.before.session.isSome = true → c.after.session = none →
    (∀ d ∈ future, d.after.session = none) ∧ l.session = none

theorem timely_nil (h₀ : l₀.Blank) : Timely [] l₀ := by
  refine ⟨h₀.lasting, fun _ _ _ => h₀.phase, fun past c future heq => ?_⟩
  simp at heq

theorem Timely.call {m : Method} {r : m.Reply} {t : Trace H} (hl : Timely h l)
    (hy : (Secure.step ops me m l).Yields t (r, l')) (hstays : (⟨l, m, r, t, l'⟩ : Call H).quits = false)
    (hc : ¬ Call.Belated h ⟨l, m, r, t, l'⟩) : Timely (h ++ [⟨l, m, r, t, l'⟩]) l' := by
  obtain ⟨hf, ha, hd⟩ := Call.stays hstays
  have hturn := Call.turn hy
  rw [show frees t = false from hf] at hturn
  refine ⟨hturn.lasting hl.lasting ha hd ?_, fun hclient hnever hnone => ?_, fun past c future heq hsome hdrop => ?_⟩
  · -- who connects without a session never had one
    rintro a rfl hclient
    cases hs : l.session with
    | some s => exact .inl (by simp [Layer.shape, hs])
    | none =>
      have hnot := (not_and.1 hc) (Call.begins_eq hclient hs)
      rw [not_or] at hnot
      refine .inr ⟨hl.young hclient (fun d hd => ?_) hs, hnot.2⟩
      exact Option.not_isSome_iff_eq_none.1 fun hsome => hnot.1 ⟨d, hd, hsome⟩
  · rw [List.forall_mem_append] at hnever
    have hbefore : l.session = none := hnever.2 ⟨l, m, r, t, l'⟩ (by simp)
    have hsame : l.config.isServer = false := hturn.isServer.symm.trans hclient
    exact hturn.phase_young ⟨hsame, hl.young hsame hnever.1 hbefore, by simp [Layer.shape, hbefore]⟩
  · rcases List.eq_nil_or_concat future with rfl | ⟨future', x, rfl⟩
    · obtain ⟨rfl, hx⟩ := List.append_inj' heq rfl
      cases hx
      exact ⟨by simp, hdrop⟩
    · rw [List.concat_eq_append, ← List.cons_append, ← List.append_assoc] at heq
      obtain ⟨rfl, hx⟩ := List.append_inj' heq rfl
      cases hx
      obtain ⟨hfuture, hnone⟩ := hl.gone past c future' rfl hsome hdrop
      have hstill : l'.session = none := by
        refine (Call.comes hy hnone).resolve_right fun hb => hc ⟨hb, .inl ⟨c, by simp, hsome⟩⟩
      rw [List.concat_eq_append, List.forall_mem_append]
      exact ⟨⟨hfuture, by simpa using hstill⟩, hstill⟩

/-- Of more calls each is as it was of fewer. -/
theorem Always.before {P : List (Call H) → Call H → Prop} {c : Call H} (hh : Always P (h ++ [c])) : Always P h ∧ P h c :=
  ⟨fun past d future heq => hh past d (future ++ [c]) (by simp [heq]), hh h c [] rfl⟩

/-- **A session is there as long as it is of use, and does not come back once it is dropped.** Whatever a new layer is
called with, whatever is below it and whatever that answers: only a client that is asked to connect gets a session that
it does not have. Unless it has had one before, or has closed both of its halves: an established layer has a session
until both halves are closed; a layer that has failed, or listens, has none; and once a session is dropped, there is
none ever after, and nothing is known of what was agreed. -/
theorem Past.session_lasts (hl : Past ops me l₀ h l) (h₀ : l₀.Blank) (hstays : ∀ c ∈ h, c.quits = false) :
    (∀ c ∈ h, c.before.session = none → c.after.session.isSome = true → c.begins = true) ∧
    (Always (fun past c => ¬ Call.Belated past c) h → l.Lasting ∧
      ∀ past c future, h = past ++ c :: future → c.before.session.isSome = true → c.after.session = none →
        ∀ d ∈ future, d.after.session = none ∧ d.after.sessionInfo ops = none) := by
  have htimely : Always (fun past c => ¬ Call.Belated past c) h → Timely h l := by
    intro halways
    induction hl with
    | start => exact timely_nil h₀
    | call hl hf hy ih =>
      obtain ⟨hbefore, hc⟩ := halways.before
      rw [List.forall_mem_append] at hstays
      exact (ih hstays.1 hbefore).call hy (hstays.2 _ (by simp)) hc
  refine ⟨fun c hc hnone hsome => ?_, fun halways => ?_⟩
  · obtain ⟨past, future, rfl⟩ := List.append_of_mem hc
    refine (Call.comes hl.amid.2.1 hnone).resolve_left fun hnone' => ?_
    rw [hnone'] at hsome
    cases hsome
  · have ht := htimely halways
    refine ⟨ht.lasting.layer, fun past c future heq hsome hdrop d hd => ?_⟩
    have hgone := (ht.gone past c future heq hsome hdrop).1 d hd
    exact ⟨hgone, Layer.sessionInfo_eq_none.2 hgone⟩

/-- A client at its beginning that has been told no name. -/
def Toy.nameless : Layer Toy.Profile Toy.Engine where
  config := { isServer := false, options := {}, source := Toy.young.profile }

theorem Toy.nameless_blank : Toy.nameless.Blank := ⟨⟨rfl, nofun⟩, rfl, rfl, rfl, fun _ => ⟨rfl, rfl⟩⟩

/-- The calls of a toy layer whose requests all succeed. -/
theorem Toy.past (ms : List Method) (l : Layer Toy.Profile Toy.Engine)
    (hf : ∀ c ∈ (played (Toy.ops (V := Unit)) Toy.me Toy.obliging ms l).1, frees c.trace = false) :
    Past (H := Toy.host) (Toy.ops (V := Unit)) Toy.me l (played (Toy.ops (V := Unit)) Toy.me Toy.obliging ms l).1
      (played (H := Toy.host) (Toy.ops (V := Unit)) Toy.me Toy.obliging ms l).2 := by
  have hlife := Life.of_played (H := Toy.host) (b := Toy.below) rfl .start (by simp) hf
  exact List.nil_append (played (Toy.ops (V := Unit)) Toy.me Toy.obliging ms l).1 ▸ hlife.past

/-- It connects, shakes hands and closes its halves, one after the other. -/
def Toy.goodbye : List Method :=
  [.op (.connect ⟨.v4 127 0 0 1, 80, 0⟩), .op (.lower (.recv (Toy.letters 's' 1))), .op (.shutdown .read),
    .op (.shutdown .write), .op (.lower .poll)]

theorem Past.session_lasts_parting : ∃ past c future l,
    Past (H := Toy.host) (Toy.ops (V := Unit)) Toy.me Toy.nameless (past ++ c :: future) l ∧ l.phase = .established ∧
      l.Lasting ∧ c.before.session.isSome = true ∧ future ≠ [] ∧ ∀ d ∈ future, d.after.session = none := by
  have hpast := Toy.past Toy.goodbye Toy.nameless (by decide +kernel)
  have hseen : (played (Toy.ops (V := Unit)) Toy.me Toy.obliging Toy.goodbye Toy.nameless).1.map (fun c =>
      (c.quits, c.begins, decide c.before.shape.Shut, c.before.session.isSome, c.after.session.isNone)) =
      [(false, true, false, false, false), (false, false, false, true, false), (false, false, false, true, false),
        (false, false, false, true, true), (false, false, true, false, true)] := by decide +kernel
  have hphase : (played (H := Toy.host) (Toy.ops (V := Unit)) Toy.me Toy.obliging Toy.goodbye Toy.nameless).2.phase =
      .established := by decide +kernel
  generalize played (H := Toy.host) (Toy.ops (V := Unit)) Toy.me Toy.obliging Toy.goodbye Toy.nameless = r at *
  simp only [List.map_eq_cons_iff, List.map_eq_nil_iff] at hseen
  obtain ⟨o, _, hr, ho, x, _, rfl, hx, y, _, rfl, hy, c, _, rfl, hc, z, _, rfl, hz, rfl⟩ := hseen
  simp only [Prod.mk.injEq, decide_eq_false_iff_not] at ho hx hy hc hz
  rw [hr] at hpast
  -- only the first call connects, and nothing was before it
  have halways : Always (fun past c => ¬ Call.Belated past c) [o, x, y, c, z] := by
    rintro past d future heq ⟨hbegins, hlate⟩
    rcases past with _ | ⟨a, past⟩
    · cases heq
      exact hlate.elim (by simp) ho.2.2.1
    · have hd : d ∈ [x, y, c, z] := by simp [(List.cons.inj heq).2]
      simp only [List.mem_cons, List.not_mem_nil, or_false] at hd
      rcases hd with rfl | rfl | rfl | rfl <;> simp_all
  obtain ⟨hlasts, hgone⟩ := (Past.session_lasts hpast Toy.nameless_blank
    (by simp [ho.1, hx.1, hy.1, hc.1, hz.1])).2 halways
  refine ⟨[o, x, y], c, [z], r.2, hpast, hphase, hlasts, hc.2.2.2.1, by simp, fun d hd => ?_⟩
  exact (hgone [o, x, y] c [z] rfl hc.2.2.2.1 (by simpa using hc.2.2.2.2) d hd).1

theorem Toy.client_blank : Toy.client.Blank :=
  ⟨⟨rfl, fun _ hs => ⟨Toy.young, (Option.some.inj hs).symm⟩⟩, rfl, rfl, rfl, nofun⟩

/-- A client's session fails, and the client is asked to connect again. -/
def Toy.lateComer : List Method :=
  [.op (.lower (.recv (Toy.letters 's' 1))), .op (.lower (.recv (Toy.record 0x17 [0]))),
    .op (.connect ⟨.v4 127 0 0 1, 80, 0⟩)]

/-- The session is dropped when it fails, and is back when the client connects. -/
theorem Past.session_returns : Toy.client.Blank ∧
    Past (H := Toy.host) (Toy.ops (V := Unit)) Toy.me Toy.client
      (played (Toy.ops (V := Unit)) Toy.me Toy.obliging Toy.lateComer Toy.client).1
      (played (H := Toy.host) (Toy.ops (V := Unit)) Toy.me Toy.obliging Toy.lateComer Toy.client).2 ∧
    (played (Toy.ops (V := Unit)) Toy.me Toy.obliging Toy.lateComer Toy.client).1.map (fun c =>
      (c.quits, c.after.phase, (c.after.sessionInfo (Toy.ops (V := Unit))).isSome)) =
        [(false, .established, true), (false, .failed, false), (false, .failed, true)] :=
  ⟨Toy.client_blank, Toy.past _ _ (by decide +kernel), by decide +kernel⟩

end Tls

end Conduit
