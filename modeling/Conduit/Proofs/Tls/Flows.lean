import Conduit.Proofs.Layer.Emits
import Conduit.Proofs.Tls.Contracts

/-!
# Plaintext flows through a TLS layer

An established TLS layer that is still read hands up what it can. So whatever its methods are called for, it holds
plaintext only while a delivery is out or after the last one was refused; and where it holds none, no whole record waits
to be opened, and no end of the stream to be told.

* `Layer.Reading`: a layer that hands plaintext up.
* `Layer.Holds`: what is out is what the layer holds.
* `Layer.Flows`: and where nothing is out, what is held was refused, or there is nothing to open.
* `Secure.step_flows`, `Secure.settle_flows`: **every method lets plaintext flow.**
-/

namespace Conduit

open Layer.Act

variable {H : Host}

namespace Tls

variable {S E : Type} {out : List Bytes}

/-- The plaintext `out` was handed up, and the verdict on it is still to come: it is all that the session holds. -/
def Session.Owes (out : List Bytes) (s : Session E) : Prop :=
  out = [] ∧ s.inFlight = none ∨ ∃ d, out = [d] ∧ d ≠ [] ∧ d = s.rxApp.toList ∧ s.inFlight = some d.length

namespace Layer

/-- A layer that hands plaintext up. -/
def Reading (l : Layer S E) : Prop := l.phase = .established ∧ l.rxState ≠ .closed

/-- The chains of a layer are well formed. Nothing is out before the layer reads; while it does, what is out is what it
holds; and when it no longer does, it awaits no verdict. -/
structure Holds (out : List Bytes) (l : Layer S E) : Prop where
  wellFormed : ∀ s, l.session = some s → s.rx.WellFormed ∧ s.rxApp.WellFormed
  early : l.phase = .handshaking → out = []
  owes : l.Reading → ∃ s, l.session = some s ∧ s.Owes out
  calm : ¬ l.Reading → ∀ s, l.session = some s → s.inFlight = none

/-- Where nothing is out, what a layer that reads holds was refused, as `r` says; or it holds nothing, has no whole record
to open, and no end of the stream to tell. -/
structure Flows (whole : E → Bytes → Prop) (r : Bytes → Prop) (out : List Bytes) (l : Layer S E) : Prop
    extends Holds out l where
  drained : l.Reading → 0 < l.config.options.rxChunkSize → out = [] → ∀ s, l.session = some s →
    s.rxApp.toList ≠ [] ∧ r s.rxApp.toList ∨
      s.rxApp.toList = [] ∧ ¬ whole s.engine s.rx.toList ∧ l.rxState ≠ .eofQueued

/-- A layer of which nothing has been asked yet. -/
structure Fresh (l : Layer S E) : Prop where
  phase : l.phase = .handshaking
  session : ∀ s, l.session = some s → ∃ e, s = .ofEngine e

variable {whole : E → Bytes → Prop} {r r' : Bytes → Prop} {l l' : Layer S E} {s s' : Session E}

theorem Reading.phase_ne {p : Phase} (h : l.Reading) (hp : p ≠ .established) : l.phase ≠ p := by
  rw [h.1]
  exact hp.symm

theorem Fresh.not_reading (h : l.Fresh) : ¬ l.Reading := fun hr => hr.phase_ne (by simp) h.phase

theorem Fresh.flows (h : l.Fresh) : l.Flows whole r [] where
  wellFormed s hs := by
    obtain ⟨e, rfl⟩ := h.session s hs
    exact ⟨Segments.wellFormed_default, Segments.wellFormed_default⟩
  early _ := rfl
  owes hr := absurd hr h.not_reading
  calm _ s hs := by
    obtain ⟨e, rfl⟩ := h.session s hs
    rfl
  drained hr := absurd hr h.not_reading

/-- Nothing flows through a layer that has no session, and reads no more. -/
theorem flows_of_none (hs : l.session = none) (hp : l.phase ≠ .handshaking) (hr : ¬ l.Reading) :
    l.Flows whole r out where
  wellFormed s h := by
    rw [hs] at h
    cases h
  early h := absurd h hp
  owes h := absurd h hr
  calm _ s h := by
    rw [hs] at h
    cases h
  drained h := absurd h hr

/-- Where nothing is read, nothing needs to flow. -/
theorem Holds.flows (h : l.Holds out) (hr : ¬ l.Reading) : l.Flows whole r out := ⟨h, fun hr' => absurd hr' hr⟩

theorem Holds.inFlight_none (h : l.Holds []) (hs : l.session = some s) : s.inFlight = none := by
  by_cases hr : l.Reading
  · obtain ⟨s', hs', howes⟩ := h.owes hr
    cases hs.symm.trans hs'
    rcases howes with ⟨-, hi⟩ | ⟨d, hd, -⟩
    · exact hi
    · cases hd
  · exact h.calm hr s hs

/-- Another session, that holds the same plaintext. -/
theorem Holds.holding (h : l.Holds out) (hs : l.session = some s) (hrx : s'.rx.WellFormed) (ha : s'.rxApp = s.rxApp)
    (hi : s'.inFlight = s.inFlight) : Holds out { l with session := some s' } where
  wellFormed s₁ hs₁ := by
    cases hs₁
    exact ⟨hrx, ha ▸ (h.wellFormed s hs).2⟩
  early := h.early
  owes hr := by
    obtain ⟨s₁, hs₁, howes⟩ := h.owes hr
    cases hs.symm.trans hs₁
    refine ⟨s', rfl, ?_⟩
    unfold Session.Owes at howes ⊢
    rwa [ha, hi]
  calm hr s₁ hs₁ := by
    cases hs₁
    exact hi.trans (h.calm hr s hs)

/-- Another session, that holds the same plaintext and has no more to open. -/
theorem Flows.holding (h : l.Flows whole r out) (hs : l.session = some s) (hrx : s'.rx.WellFormed)
    (ha : s'.rxApp = s.rxApp) (hi : s'.inFlight = s.inFlight)
    (hw : ¬ whole s.engine s.rx.toList → ¬ whole s'.engine s'.rx.toList) :
    Flows whole r out { l with session := some s' } where
  toHolds := h.toHolds.holding hs hrx ha hi
  drained hr hn ho s₁ hs₁ := by
    cases hs₁
    rw [ha]
    exact (h.drained hr hn ho s hs).imp_right fun hd => ⟨hd.1, hw hd.2.1, hd.2.2⟩

theorem reading_congr (hp : l'.phase = l.phase) (hr : l'.rxState = l.rxState) : l'.Reading ↔ l.Reading := by
  unfold Reading
  rw [hp, hr]

theorem Holds.of_same (h : l.Holds out) (hs : l'.session = l.session) (hp : l'.phase = l.phase)
    (hr : l'.rxState = l.rxState) : l'.Holds out where
  wellFormed s hs' := h.wellFormed s (hs ▸ hs')
  early hp' := h.early (hp ▸ hp')
  owes h' := by
    rw [hs]
    exact h.owes ((reading_congr hp hr).1 h')
  calm h' s hs' := h.calm (fun h₀ => h' ((reading_congr hp hr).2 h₀)) s (hs ▸ hs')

/-- What concerns neither the receiver nor the engine. -/
theorem Flows.of_same (h : l.Flows whole r out) (hs : l'.session = l.session) (hp : l'.phase = l.phase)
    (hr : l'.rxState = l.rxState) (hc : l'.config = l.config) : l'.Flows whole r out where
  toHolds := h.toHolds.of_same hs hp hr
  drained h' hn ho s hs' := by
    rw [hr]
    exact h.drained ((reading_congr hp hr).1 h') (hc ▸ hn) ho s (hs ▸ hs')

/-- Where there is no session, nothing is read; a fresh one may be begun. -/
theorem Holds.begun (h : l.Holds out) (hs : l.session = none) (e : E) (name : Option String) :
    Flows whole r out { l with session := some (.ofEngine e), serverName := name } := by
  have hr : ¬ l.Reading := by
    intro hr
    obtain ⟨s, hs', -⟩ := h.owes hr
    rw [hs] at hs'
    cases hs'
  refine ⟨⟨fun s hs' => ?_, h.early, fun hr' => absurd hr' hr, fun _ s hs' => ?_⟩, fun hr' => absurd hr' hr⟩
  · cases hs'
    exact ⟨Segments.wellFormed_default, Segments.wellFormed_default⟩
  · cases hs'
    rfl

/-- A layer whose handshake is complete has nothing out. -/
theorem Holds.established (h : l.Holds out) (hp : l.phase = .handshaking) (hs : l.session = some s) :
    Holds out { l with phase := .established } := by
  have hr : ¬ l.Reading := fun hr => hr.phase_ne (by simp) hp
  have ho := h.early hp
  have hi := h.calm hr s hs
  refine ⟨h.wellFormed, fun _ => ho, fun _ => ⟨s, hs, .inl ⟨ho, hi⟩⟩, fun _ s' hs' => ?_⟩
  cases hs.symm.trans hs'
  exact hi

end Layer

end Tls

namespace Secure

open Tls

variable {ops : EngineOps H.Engine H.Shared} {whole : H.Engine → Bytes → Prop} {me : Handle} {flag : Bool}
  {r r' : Bytes → Prop} {out : List Bytes} {l : Tls.Layer H.Source H.Engine} {s : Session H.Engine}
  {new : Tls.Layer H.Source H.Engine → Prop} {α β : Type}

/-! ## Requests that change nothing -/

section

variable {post : Unit → Tls.Layer H.Source H.Engine → Bool → List Bytes → Prop}

theorem emits_ackLower {n : Nat} (h : post () l flag out) : Emits new (ackLower n) l flag out post := by
  unfold ackLower
  split
  · exact h
  · simp only [emits_bind, emits_inner]
    intro x
    cases x with
    | none => exact h
    | some id => exact fun _ => h

theorem emits_outputLower (h : post () l flag out) : Emits new (outputLower me) l flag out post := by
  unfold outputLower
  simp only [emits_bind, emits_inner]
  intro x
  cases x with
  | none => exact h
  | some id =>
    simp only [emits_bind, emits_ask]
    intro y
    cases y with
    | ok _ => exact h
    | error f => exact fun _ => h

theorem emits_dropLower (h : post () l flag out) : Emits new dropLower l flag out post := by
  unfold dropLower
  simp only [emits_bind, emits_inner]
  intro x
  cases x with
  | none => exact h
  | some id =>
    simp only [emits_bind, emits_ask]
    intro y
    cases y with
    | ok _ => exact h
    | error f => exact fun _ => h

/-- Only the counters of the session change. -/
theorem emits_ackOverhead (h : post () { l with session := some { s with bytesRead := 0, bytesAppl := 0 } } flag out) :
    Emits new (ackOverhead me s) l flag out post := by
  unfold ackOverhead
  have hrest : Emits new (do
      setSession { s with bytesRead := 0, bytesAppl := 0 }
      if 0 < s.bytesRead - s.bytesAppl then
        note (.trace "record overhead acknowledged" [me.field, ("overhead", toString (s.bytesRead - s.bytesAppl))])
        ackLower (s.bytesRead - s.bytesAppl)) l flag out post := by
    simp only [setSession, emits_bind, emits_modify]
    split
    · rw [emits_bind, emits_note]
      exact emits_ackLower h
    · exact h
  dsimp only
  split
  · rw [emits_bind, emits_note]
    exact hrest
  · exact hrest

end

/-! ## Handing up -/

/-- Plaintext flows through the layer that is left, which is configured as before; whether its connection is to go is
as it was. -/
structure Lets (whole : H.Engine → Bytes → Prop) (r : Bytes → Prop) (l : Tls.Layer H.Source H.Engine) (flag : Bool)
    (l' : Tls.Layer H.Source H.Engine) (flag' : Bool) (out' : List Bytes) : Prop where
  flag : flag' = flag
  config : l'.config = l.config
  flows : l'.Flows whole r out'

theorem Lets.of_same {l₁ l' : Tls.Layer H.Source H.Engine} {flag' : Bool} (h : Lets whole r l₁ flag l' flag' out)
    (hc : l₁.config = l.config) : Lets whole r l flag l' flag' out := ⟨h.flag, h.config.trans hc, h.flows⟩

/-- Once the receiver has been told the end of the stream, the session may be given up. -/
theorem emits_afterRxClosed (h : l.Holds out) (hr : ¬ l.Reading) :
    Emits new (afterRxClosed me) l flag out fun _ => Lets whole r l flag := by
  unfold afterRxClosed
  simp only [emits_bind, emits_get]
  split
  · simp only [emits_bind, emits_modify, emits_note]
    exact ⟨rfl, rfl, ⟨by simp, h.early, fun h' => absurd h' hr, fun _ => by simp⟩, fun h' => absurd h' hr⟩
  · exact ⟨rfl, rfl, h.flows hr⟩

/-- The receiver is told the end of the stream when nothing is out. -/
theorem emits_deliverEof (h : l.Holds []) : Emits new (deliverEof me) l flag [] fun _ => Lets whole r l flag := by
  unfold deliverEof
  simp only [emits_bind, emits_get]
  split
  · rename_i hclosed
    exact ⟨rfl, rfl, h.flows fun hr => hr.2 hclosed⟩
  · simp only [emits_bind, emits_modify, emits_note, emits_emit, Event.parcel, List.append_nil]
    have hclosed : ¬ Tls.Layer.Reading { l with rxState := .closed } := fun hr => hr.2 rfl
    have hholds : Tls.Layer.Holds [] { l with rxState := .closed } :=
      ⟨h.wellFormed, h.early, fun hr => absurd hr hclosed, fun _ s hs => h.inFlight_none hs⟩
    exact (emits_afterRxClosed hholds hclosed).mono fun _ _ _ _ h' => h'.of_same rfl

/-- A session that has failed lets nothing flow any more. -/
theorem emits_failSession (f : Fault) : Emits new (failSession me f) l flag out fun _ => Lets whole r l flag := by
  have hfailed : ∀ l' : Tls.Layer H.Source H.Engine, l'.session = none → l'.phase = .failed → ∀ out,
      l'.Flows whole r out := fun l' hs hp out =>
    Tls.Layer.flows_of_none hs (by simp [hp]) fun hr => hr.phase_ne (by simp) hp
  unfold failSession
  simp only [emits_bind, emits_note, emits_modify, emits_get]
  split
  · simp only [emits_bind, emits_modify, emits_emit]
    exact emits_dropLower ⟨rfl, rfl, hfailed _ rfl rfl _⟩
  · exact emits_dropLower ⟨rfl, rfl, hfailed _ rfl rfl _⟩

/-- Plaintext is handed up. -/
theorem emits_offer (h : l.Holds []) (hr : l.Reading) (hs : l.session = some s) (hne : s.rxApp.toList ≠ []) :
    Emits new (offer s) l flag [] fun _ => Lets whole r l flag := by
  obtain ⟨hrx, happ⟩ := h.wellFormed s hs
  unfold offer
  simp only [setSession, emits_bind, emits_modify, emits_emit]
  refine ⟨rfl, rfl, ⟨fun _ hs' => by cases hs'; exact ⟨hrx, happ⟩, fun hp => absurd hp (hr.phase_ne (by simp)),
    fun _ => ⟨_, rfl, .inr ⟨_, rfl, hne, rfl, ?_⟩⟩, fun hr' => absurd hr hr'⟩, fun _ _ ho => by cases ho⟩
  rw [happ.size_eq]

/-- There is plaintext to hand up, or no piece that is handed up holds any. -/
theorem emits_offerHeld (h : l.Holds []) (hr : l.Reading) (hs : l.session = some s)
    (hne : 0 < l.config.options.rxChunkSize → s.rxApp.toList ≠ []) :
    Emits new offerHeld l flag [] fun _ => Lets whole r l flag := by
  unfold offerHeld
  simp only [emits_bind, emits_get, hs]
  split
  · rename_i he
    exact ⟨rfl, rfl, h, fun _ hn => absurd ((h.wellFormed s hs).2.isEmpty_iff.1 he) (hne hn)⟩
  · rename_i he
    exact emits_offer h hr hs fun hnil => he ((h.wellFormed s hs).2.isEmpty_iff.2 hnil)

section

variable (hx : Exhausts ops whole) (hf : Fruitful ops)
include hx hf

/-- The next piece of plaintext is handed up; where there is none, there is nothing to open. -/
theorem emits_openRecord (h : l.Holds []) (hr : l.Reading)
    (hs : l.session = some s) (he : s.rxApp.toList = []) :
    Emits new (openRecord ops me s) l flag [] fun _ => Lets whole r l flag := by
  obtain ⟨hrx, happ⟩ := h.wellFormed s hs
  unfold openRecord
  simp only [emits_bind, emits_get]
  refine emits_drive hrx fun outcome e ps rx n hw hrx' => ?_
  simp only [setSession, emits_modify]
  cases outcome with
  | error f =>
    exact (emits_failSession f).mono fun _ _ _ _ h' => h'.of_same rfl
  | ok y =>
    cases y with
    | data plain =>
      -- with the plaintext, the layer holds something that it can hand up
      have hheld : ∀ s' : Session H.Engine, s'.rx = rx → s'.rxApp = s.rxApp.push plain → s'.inFlight = s.inFlight →
          Emits new offerHeld { l with session := some s' } flag [] fun _ => Lets whole r l flag := by
        intro s' hrx₁ happ₁ hi₁
        have hholds : Tls.Layer.Holds [] { l with session := some s' } :=
          ⟨fun _ hs' => by cases hs'; exact ⟨hrx₁ ▸ hrx', happ₁ ▸ happ.push⟩, fun _ => rfl,
            fun _ => ⟨s', rfl, .inl ⟨rfl, hi₁.trans (h.inFlight_none hs)⟩⟩, fun hr' => absurd hr hr'⟩
        have hsome : 0 < l.config.options.rxChunkSize → s'.rxApp.toList ≠ [] := by
          intro hn
          rw [happ₁, Segments.toList_push]
          simp [hf hn hw]
        exact (emits_offerHeld hholds hr rfl hsome).mono fun _ _ _ _ h' => h'.of_same rfl
      dsimp only
      simp only [emits_bind, emits_modify]
      split
      · rw [emits_bind]
        exact emits_ackOverhead (hheld _ rfl rfl rfl)
      · exact hheld _ rfl rfl rfl
    | wouldBlock =>
      have hholds : ∀ s' : Session H.Engine, s'.rx = rx → s'.rxApp = s.rxApp → s'.inFlight = s.inFlight →
          Tls.Layer.Holds [] { l with session := some s' } := fun s' hrx₁ happ₁ hi₁ =>
        h.holding hs (hrx₁ ▸ hrx') happ₁ hi₁
      have hrest : ∀ s' : Session H.Engine, s'.engine = e → s'.rx = rx → s'.rxApp = s.rxApp →
          s'.inFlight = s.inFlight → Emits new (do
            if (← get).rxState = .eofQueued then deliverEof me) { l with session := some s' } flag [] fun _ =>
              Lets whole r l flag := by
        intro s' he₁ hrx₁ happ₁ hi₁
        simp only [emits_bind, emits_get]
        split
        · exact (emits_deliverEof (hholds s' hrx₁ happ₁ hi₁)).mono fun _ _ _ _ h' => h'.of_same rfl
        · rename_i hqueued
          refine ⟨rfl, rfl, hholds s' hrx₁ happ₁ hi₁, fun _ _ _ s₁ hs₁ => .inr ?_⟩
          cases hs₁
          refine ⟨happ₁ ▸ he, ?_, hqueued⟩
          rw [he₁, hrx₁]
          exact hx.decrypt hw
      dsimp only
      split
      · rw [emits_bind]
        exact emits_ackOverhead (hrest _ rfl rfl rfl rfl)
      · exact hrest _ rfl rfl rfl rfl
    | peerClosed =>
      dsimp only
      simp only [emits_bind]
      refine emits_ackOverhead ?_
      rw [emits_note]
      have hholds : Tls.Layer.Holds [] { l with session := some { s with
          engine := e, rx, bytesRead := 0, bytesAppl := 0 } } := h.holding hs hrx' rfl rfl
      exact (emits_deliverEof hholds).mono fun _ _ _ _ h' => h'.of_same rfl

/-- **A layer that looks for plaintext** hands up what there is. -/
theorem emits_deliver (h : l.Holds out) :
    Emits new (deliver ops me) l flag out fun _ => Lets whole r l flag := by
  unfold deliver
  simp only [emits_bind, emits_get]
  split
  · rename_i hstop
    refine ⟨rfl, rfl, h.flows fun hr => ?_⟩
    simp [hr.1, hr.2] at hstop
  · rename_i hgo
    have hr : l.Reading := by
      unfold Tls.Layer.Reading
      simpa using hgo
    obtain ⟨s, hs, howes⟩ := h.owes hr
    simp only [hs]
    rcases howes with ⟨rfl, hi⟩ | ⟨d, rfl, -, -, hi⟩
    · rw [if_neg (by simp [hi])]
      split
      · rename_i he
        exact emits_offer h hr hs fun hnil => by simp [(h.wellFormed s hs).2.isEmpty_iff.2 hnil] at he
      · rename_i he
        exact emits_openRecord hx hf h hr hs ((h.wellFormed s hs).2.isEmpty_iff.1 (by simpa using he))
    · rw [if_pos (by simp [hi])]
      exact ⟨rfl, rfl, h, fun _ _ ho => by cases ho⟩

end

/-! ## Methods -/

section

variable (hx : Exhausts ops whole)
include hx

/-- What is sent brings nothing to open about. -/
theorem emits_flush (h : l.Flows whole r out) : Emits new (flush ops me) l flag out fun _ => Lets whole r l flag := by
  unfold flush
  simp only [emits_bind, emits_get]
  split
  · exact ⟨rfl, rfl, h⟩
  · rename_i s hs
    rw [emits_bind]
    refine emits_drive (h.wellFormed s hs).1 fun sent e ps rx n hw hrx => ?_
    simp only [setSession, emits_bind, emits_modify]
    have h' : Lets whole r l flag { l with session := some { s with engine := e, rx, bytesRead := n } } flag out :=
      ⟨rfl, rfl, h.holding hs hrx rfl rfl fun hn => hx.flush hn hw⟩
    cases sent with
    | error f => exact h'
    | ok b =>
      dsimp only
      rw [emits_bind]
      exact emits_outputLower h'

theorem emits_flushOn (h : l.Flows whole r out) (what : String) :
    Emits new (flushOn ops me what) l flag out fun _ => Lets whole r l flag := by
  unfold flushOn
  rw [emits_bind]
  refine (emits_flush hx h).mono fun x l' flag' out' h' => ?_
  cases x with
  | ok b => exact h'
  | error f =>
    dsimp only
    rw [emits_note]
    exact h'

theorem emits_sendCloseNotify (h : l.Flows whole r out) :
    Emits new (sendCloseNotify ops me) l flag out fun _ => Lets whole r l flag := by
  unfold sendCloseNotify
  simp only [emits_bind, emits_get]
  split
  · rename_i s hp hs
    split
    · exact ⟨rfl, rfl, h⟩
    · simp only [setSession, emits_bind, emits_modify]
      have h₁ : Tls.Layer.Flows whole r out { l with session := some { s with
          closeNotifySent := true, engine := ops.closeNotify s.engine } } :=
        h.holding hs (h.wellFormed s hs).1 rfl rfl hx.closeNotify
      refine (emits_flush hx h₁).mono fun x l' flag' out' h' => ?_
      cases x with
      | ok b => exact h'.of_same rfl
      | error f =>
        dsimp only
        rw [emits_note]
        exact h'.of_same rfl
  · exact ⟨rfl, rfl, h⟩

/-- What is encrypted is for sending. -/
theorem emits_encrypt (h : l.Flows whole r out) (data : Bytes) (clear : Except Fault Bool) :
    Emits new (encrypt ops me data clear) l flag out fun _ => Lets whole r l flag := by
  unfold encrypt
  split
  · exact ⟨rfl, rfl, h⟩
  · rw [emits_bind, emits_note]
    exact ⟨rfl, rfl, h⟩
  · simp only [emits_bind, emits_get]
    split
    · exact ⟨rfl, rfl, h⟩
    · rename_i s hs
      have h₁ : ∀ sent, Tls.Layer.Flows whole r out { l with session := some { s with
          engine := (ops.encrypt s.engine data).1, applDataSent := sent } } := fun sent =>
        h.holding hs (h.wellFormed s hs).1 rfl rfl hx.encrypt
      simp only [setSession, emits_bind, emits_modify]
      split
      · exact ⟨rfl, rfl, h₁ _⟩
      · split
        · rw [emits_bind, emits_note]
          exact ⟨rfl, rfl, h₁ _⟩
        · simp only [emits_bind, emits_modify]
          exact (emits_flush hx (h₁ true)).mono fun _ _ _ _ h' => h'.of_same rfl

theorem emits_write (h : l.Flows whole r out) (data : Bytes) :
    Emits new (write ops me data) l flag out fun _ => Lets whole r l flag := by
  unfold write
  simp only [emits_bind, emits_get]
  split
  · exact ⟨rfl, rfl, h⟩
  · exact ⟨rfl, rfl, h⟩
  · exact ⟨rfl, rfl, h⟩
  · split
    · exact ⟨rfl, rfl, h⟩
    · split
      · exact ⟨rfl, rfl, h⟩
      · split
        · rw [emits_bind]
          refine (emits_flush hx h).mono fun x l' flag' out' h' => ?_
          refine (emits_encrypt hx h'.flows data x).mono fun _ l'' flag'' out'' h'' => ?_
          exact ⟨h''.flag.trans h'.flag, h''.config.trans h'.config, h''.flows⟩
        · exact (emits_bind _ _).2 (emits_encrypt hx h data _)

end

/-- The connection below is asked to connect. -/
theorem emits_connectBelow (addr : Endpoint) (hc : l'.config = l.config) (h : l'.Flows whole r out) :
    Emits new (do
      match ← Layer.Act.inner with
      | none => pure (.error .invalidArgument)
      | some id =>
        modify fun l => { l with connecting := true }
        match ← ask id (.connect addr) with
        | .ok () => pure (.ok ())
        | .error f =>
          modify fun l => { l with connecting := false }
          pure (.error f) : Act H Outcome) l' flag out fun _ => Lets whole r l flag := by
  simp only [emits_bind, emits_inner]
  intro x
  cases x with
  | none => exact ⟨rfl, hc, h⟩
  | some id =>
    simp only [emits_bind, emits_modify, emits_ask]
    intro y
    cases y with
    | ok _ => exact ⟨rfl, hc, h.of_same rfl rfl rfl rfl⟩
    | error f =>
      simp only [emits_bind, emits_modify]
      exact ⟨rfl, hc, h.of_same rfl rfl rfl rfl⟩

theorem emits_connect (h : l.Flows whole r out) (addr : Endpoint) :
    Emits new (connect addr) l flag out fun _ => Lets whole r l flag := by
  unfold connect
  simp only [emits_bind, emits_get]
  split
  · exact ⟨rfl, rfl, h⟩
  · split
    · exact emits_connectBelow addr rfl h
    · rename_i hs
      simp only [emits_bind, emits_newEngine]
      intro x
      cases x with
      | error f => exact ⟨rfl, rfl, h⟩
      | ok e =>
        simp only [emits_bind, emits_modify]
        exact emits_connectBelow addr rfl (h.toHolds.begun hs e _)

theorem emits_listen (h : l.Flows whole r out) (backlog : Nat) :
    Emits new (listen backlog) l flag out fun _ => Lets whole r l flag := by
  unfold listen
  simp only [emits_bind, emits_get]
  split
  · exact ⟨rfl, rfl, h⟩
  · simp only [emits_bind, emits_inner]
    intro x
    cases x with
    | none => exact ⟨rfl, rfl, h⟩
    | some id =>
      simp only [emits_bind, emits_ask]
      intro y
      cases y with
      | error f => exact ⟨rfl, rfl, h⟩
      | ok _ =>
        simp only [emits_bind, emits_modify]
        exact ⟨rfl, rfl, Tls.Layer.flows_of_none rfl (by simp) fun hr => hr.phase_ne (by simp) rfl⟩

theorem emits_recved (h : l.Flows whole r out) (len : Nat) :
    Emits new (recved me len) l flag out fun _ => Lets whole r l flag := by
  unfold recved
  simp only [emits_bind, emits_get]
  split
  · rename_i s hp hs
    have hrest : Emits new (do
        setSession { s with passedUnrecved := s.passedUnrecved - min len s.passedUnrecved }
        ackLower (min len s.passedUnrecved)) l flag out fun _ => Lets whole r l flag := by
      simp only [setSession, emits_bind, emits_modify]
      exact emits_ackLower ⟨rfl, rfl, h.holding hs (h.wellFormed s hs).1 rfl rfl id⟩
    split
    · rw [emits_bind, emits_note]
      exact hrest
    · exact hrest
  · exact ⟨rfl, rfl, h⟩

theorem emits_dropData (h : l.Flows whole r out) (len : Nat) :
    Emits new (dropData me len) l flag out fun _ => Lets whole r l flag := by
  unfold dropData
  rw [emits_bind, emits_note]
  exact emits_ackLower ⟨rfl, rfl, h⟩

/-- The layers that are put on accepted connections are fresh. -/
theorem emits_create (c : Tls.Config H.Source) : Emits new
    (Tls.Layer.create newEngine c none : Act H (Except Fault (Tls.Layer H.Source H.Engine))) l flag out
    fun x l' flag' out' => l' = l ∧ flag' = flag ∧ out' = out ∧ ∀ l₁, x = .ok l₁ → l₁.Fresh := by
  have hfresh : ∀ (e : H.Engine) (name : Option String),
      Tls.Layer.Fresh ({ config := c, session := some (.ofEngine e), serverName := name } : Tls.Layer H.Source H.Engine) :=
    fun e name => ⟨rfl, fun s hs => ⟨e, (Option.some.inj hs).symm⟩⟩
  -- a fresh engine, or none
  have hnew : ∀ (name : Option Tls.ServerName) (text : Option String), Emits new
      (do
        pure ((← newEngine c name).map fun e => { config := c, session := some (.ofEngine e), serverName := text }) :
        Act H (Except Fault (Tls.Layer H.Source H.Engine))) l flag out
      fun x l' flag' out' => l' = l ∧ flag' = flag ∧ out' = out ∧ ∀ l₁, x = .ok l₁ → l₁.Fresh := by
    intro name text
    simp only [emits_bind, emits_newEngine]
    intro x
    refine ⟨rfl, rfl, rfl, fun l₁ hl₁ => ?_⟩
    cases x with
    | error f => cases hl₁
    | ok e =>
      cases hl₁
      exact hfresh e text
  unfold Tls.Layer.create
  dsimp only
  split
  · exact hnew _ _
  · split
    · refine ⟨rfl, rfl, rfl, fun l₁ hl₁ => ?_⟩
      cases hl₁
      exact ⟨rfl, by simp⟩
    · split
      · exact ⟨rfl, rfl, rfl, by simp⟩
      · exact hnew _ _

/-- A connection that is accepted changes nothing in the layer that listens. -/
theorem emits_accept (conn : Handle) :
    Emits Tls.Layer.Fresh (accept me conn) l flag out fun _ l' flag' out' => l' = l ∧ flag' = flag ∧ out' = out := by
  unfold accept
  simp only [emits_bind, emits_get]
  refine (emits_create l.config).mono ?_
  rintro x _ _ _ ⟨rfl, rfl, rfl, hx⟩
  cases x with
  | error f => exact ⟨rfl, rfl, rfl⟩
  | ok layer =>
    simp only [emits_bind, emits_cover]
    refine ⟨hx layer rfl, fun y => ?_⟩
    cases y with
    | error f => exact ⟨rfl, rfl, rfl⟩
    | ok new =>
      simp only [emits_bind, emits_note, emits_emit, Event.parcel, List.append_nil]
      exact ⟨rfl, rfl, rfl⟩

section

variable (hx : Exhausts ops whole) (hf : Fruitful ops)
include hx hf

/-- **A layer that something has come in for** takes its handshake on, and hands up what there is. -/
theorem emits_receive (h : l.Holds out) : Emits new (receive ops me) l flag out fun _ => Lets whole r l flag := by
  unfold receive
  simp only [emits_bind, emits_get]
  split
  · rename_i hp
    have hreading : ¬ l.Reading := fun hr => hr.phase_ne (by simp) hp
    split
    · exact ⟨rfl, rfl, h.flows hreading⟩
    · rename_i s hs
      rw [emits_bind]
      refine emits_drive (h.wellFormed s hs).1 fun progress e ps rx n hw hrx => ?_
      simp only [setSession, emits_bind, emits_modify]
      refine emits_outputLower (emits_ackLower ?_)
      have h' : Tls.Layer.Holds out { l with session := some { s with engine := e, rx, bytesRead := 0 } } :=
        h.holding hs hrx rfl rfl
      cases progress with
      | error f => exact (emits_failSession f).mono fun _ _ _ _ h' => h'.of_same rfl
      | ok p =>
        cases p with
        | inProgress => exact ⟨rfl, rfl, h'.flows hreading⟩
        | done =>
          simp only [emits_bind, establish, emits_modify, emits_get, emits_note]
          have hest : Tls.Layer.Holds out { l with
              phase := .established, session := some { s with engine := e, rx, bytesRead := 0 } } :=
            h'.established hp rfl
          split
          · simp only [emits_bind, emits_modify, emits_emit, Event.parcel, List.append_nil]
            have hdone : Tls.Layer.Holds out { l with
                phase := .established, session := some { s with engine := e, rx, bytesRead := 0 }, connecting := false } :=
              hest.of_same rfl rfl rfl
            exact (emits_deliver hx hf hdone).mono fun _ _ _ _ h' => h'.of_same rfl
          · rw [emits_pure]
            exact (emits_deliver hx hf hest).mono fun _ _ _ _ h' => h'.of_same rfl
  · exact emits_deliver hx hf h

/-- Ciphertext that comes in is opened, unless nobody wants it. -/
theorem emits_lowerData (h : l.Flows whole r out) (data : Bytes) :
    Emits new (lowerData ops me data) l flag out fun _ => Lets whole r l flag := by
  unfold lowerData
  simp only [emits_bind, emits_get]
  split
  · rename_i s hs
    split
    · simp only [setSession, emits_bind, emits_modify]
      have h' : Tls.Layer.Holds out { l with session := some { s with rx := s.rx.push data } } :=
        h.toHolds.holding hs (h.wellFormed s hs).1.push rfl rfl
      exact (emits_receive hx hf h').mono fun _ _ _ _ h' => h'.of_same rfl
    · exact emits_dropData h _
  · exact emits_dropData h _

/-- The end of the stream is told when there is no more to open. -/
theorem emits_lowerEof (h : l.Flows whole r out) :
    Emits new (lowerEof ops me) l false out fun _ l' flag out' => flag = false → Lets whole r l false l' flag out' := by
  unfold lowerEof
  simp only [emits_bind, emits_get]
  split
  · rename_i hp
    split
    · exact fun _ => ⟨rfl, rfl, h⟩
    · rename_i hopened
      simp only [emits_bind, emits_modify, emits_note]
      have hr : l.Reading := ⟨hp, fun hc => hopened (by simp [hc])⟩
      have h' : Tls.Layer.Holds out { l with rxState := .eofQueued } :=
        ⟨h.wellFormed, h.early, fun _ => h.owes hr, fun hr' => absurd ⟨hp, by simp⟩ hr'⟩
      exact (emits_deliver hx hf h').mono fun _ _ _ _ h' _ => h'.of_same rfl
  · simp only [emits_bind, emits_note, emits_modify]
    refine emits_dropLower ?_
    rw [emits_fail]
    simp
  · exact fun _ => ⟨rfl, rfl, h⟩
  · exact fun _ => ⟨rfl, rfl, h⟩

/-- What an event from below causes lets plaintext flow, unless it ends the connection. -/
theorem lower_flows (h : l.Flows whole r out) (e : Event) :
    Emits Tls.Layer.Fresh (lower ops me e) l false out fun _ l' flag out' =>
      flag = false → Lets whole r l false l' flag out' := by
  cases e with
  | accept conn =>
    unfold lower
    simp only [emits_bind, emits_get]
    split
    · exact fun _ => ⟨rfl, rfl, h⟩
    · refine (emits_accept conn).mono ?_
      rintro _ _ _ _ ⟨rfl, rfl, rfl⟩ -
      exact ⟨rfl, rfl, h⟩
  | connected x =>
    cases x with
    | ok _ =>
      unfold lower
      simp only [emits_bind, emits_note]
      exact (emits_receive hx hf h.toHolds).mono fun _ _ _ _ h' _ => h'
    | error f =>
      unfold lower
      simp only [emits_bind, emits_modify, emits_emit, Event.parcel, List.append_nil]
      exact fun _ => ⟨rfl, rfl, h.of_same rfl rfl rfl rfl⟩
  | recv data =>
    unfold lower
    rw [emits_bind]
    exact (emits_lowerData hx hf h data).mono fun _ _ _ _ h' _ => h'
  | eof =>
    unfold lower
    rw [emits_bind]
    exact (emits_lowerEof hx hf h).mono fun _ _ _ _ h' => h'
  | sent len =>
    unfold lower
    simp only [emits_bind, emits_note]
    refine (emits_flushOn hx h _).mono fun _ l' flag' out' h' => ?_
    simp only [emits_get]
    split
    · simp only [emits_bind, emits_emit, Event.parcel, List.append_nil]
      exact fun _ => h'
    · exact fun _ => h'
  | poll =>
    unfold lower
    simp only [emits_bind]
    refine (emits_flushOn hx h _).mono fun _ l' flag' out' h' => ?_
    refine (emits_deliver (r := r) hx hf h'.flows.toHolds).mono fun _ l'' flag'' out'' h'' => ?_
    simp only [emits_emit, Event.parcel, List.append_nil]
    exact fun _ => ⟨h''.flag.trans h'.flag, h''.config.trans h'.config, h''.flows⟩
  | error reason =>
    unfold lower
    simp only [emits_bind, emits_note, emits_modify, emits_fail]
    simp

/-- **A verdict** on what was out: what was accepted is dropped, and the next piece is handed up; what was refused
stays. -/
theorem settle_flows {d : Bytes} (h : l.Flows whole r (d :: out)) {v : Outcome} (hv : ∀ f, v = .error f → r' d) :
    Emits new (step ops me (.settled v)) l false out fun _ l' flag out' => Lets whole r' l false l' flag out' := by
  have hphase : l.phase ≠ .handshaking := fun hp => absurd (h.early hp) (by simp)
  -- a layer that does not read awaits no verdict
  have hvoid : ¬ l.Reading → l.Flows whole r' out := fun hr =>
    ⟨⟨h.wellFormed, fun hp => absurd hp hphase, fun hr' => absurd hr' hr, fun _ => h.calm hr⟩, fun hr' => absurd hr' hr⟩
  show Emits new (settle ops me v) l false out _
  unfold settle
  simp only [emits_bind, emits_get]
  split
  · rename_i hs
    refine ⟨rfl, rfl, hvoid fun hr => ?_⟩
    obtain ⟨s, hs', -⟩ := h.owes hr
    rw [hs] at hs'
    cases hs'
  · rename_i s hs
    by_cases hr : l.Reading
    · obtain ⟨s', hs', howes⟩ := h.owes hr
      cases hs.symm.trans hs'
      obtain ⟨d', hd, hne, happ, hi⟩ := howes.resolve_left (by simp)
      cases hd
      obtain ⟨hrx, hwf⟩ := h.wellFormed s hs
      -- with the verdict, nothing is out
      have hholds : ∀ s' : Session H.Engine, s'.rx = s.rx → s'.rxApp.WellFormed → s'.inFlight = none →
          Tls.Layer.Holds [] { l with session := some s' } := fun s' hrx' hwf' hi' =>
        ⟨fun _ hs' => by cases hs'; exact ⟨hrx' ▸ hrx, hwf'⟩, fun _ => rfl, fun _ => ⟨s', rfl, .inl ⟨rfl, hi'⟩⟩,
          fun hr' => absurd hr hr'⟩
      simp only [hi]
      cases v with
      | ok _ =>
        simp only [setSession, emits_bind, emits_modify]
        refine (emits_deliver hx hf (hholds _ ?_ ?_ ?_)).mono fun _ _ _ _ h' => h'.of_same rfl
        · rfl
        · exact hwf.advance
        · rfl
      | error f =>
        simp only [setSession, emits_bind, emits_modify, emits_note]
        refine ⟨rfl, rfl, hholds _ rfl hwf rfl, fun _ _ _ s' hs' => .inl ?_⟩
        cases hs'
        rw [← happ]
        exact ⟨hne, hv f rfl⟩
    · rw [h.calm hr s hs]
      exact ⟨rfl, rfl, hvoid hr⟩

omit hx hf in
/-- The connection goes with the one below, if that lets itself be closed. -/
theorem emits_closed (h : Lets whole r l false l' flag out) (x : Outcome) : Emits new (do
    match x with
    | .error f => pure (.error f)
    | .ok () =>
      note (.debug "tls connection closed" [me.field, ("rx_closed", Text.boolText ((← get).rxState = .closed))])
      modify fun l => { l with session := none, txClosed := true, rxState := .closed }
      release
      pure (.ok ()) : Act H Outcome) l' flag out fun _ l' flag out' =>
        flag = false → Lets whole r l false l' flag out' := by
  cases x with
  | error f => exact fun _ => h
  | ok _ =>
    simp only [emits_bind, emits_get, emits_note, emits_modify, emits_release]
    simp

omit hf in
theorem close_flows (h : l.Flows whole r out) :
    Emits new (close ops me) l false out fun _ l' flag out' => flag = false → Lets whole r l false l' flag out' := by
  unfold close
  simp only [emits_bind]
  refine (emits_sendCloseNotify hx h).mono fun _ l' flag' out' h' => ?_
  simp only [emits_inner]
  intro x
  cases x with
  | none => exact emits_closed h' (.ok ())
  | some id => exact fun y => emits_closed h' y

omit hf in
theorem shutdownWrite_flows (h : l.Flows whole r out) :
    Emits new (shutdownWrite ops me) l flag out fun _ => Lets whole r l flag := by
  unfold shutdownWrite
  simp only [emits_bind, emits_get]
  split
  · exact ⟨rfl, rfl, h⟩
  · simp only [emits_bind]
    refine (emits_sendCloseNotify hx h).mono fun _ l' flag' out' h' => ?_
    simp only [emits_inner]
    intro x
    cases x with
    | none => exact h'
    | some id =>
      simp only [emits_bind, emits_ask]
      intro y
      cases y with
      | error f => exact h'
      | ok _ =>
        simp only [emits_bind, emits_modify, emits_get]
        have h₁ : Tls.Layer.Flows whole r out' { l' with txClosed := true } := h'.flows.of_same rfl rfl rfl rfl
        split
        · rename_i hclosed
          simp only [emits_bind]
          have hafter : Emits new (afterRxClosed me) { l' with txClosed := true } flag' out' fun _ =>
              Lets whole r { l' with txClosed := true } flag' :=
            emits_afterRxClosed h₁.toHolds fun hr => hr.2 hclosed
          refine hafter.mono fun _ _ _ _ h'' => ?_
          exact ⟨h''.flag.trans h'.flag, h''.config.trans h'.config, h''.flows⟩
        · exact ⟨h'.flag, h'.config, h₁⟩

omit hx hf in
/-- Nothing flows through a layer whose read half is shut. -/
theorem shutdownRead_flows (h : l.Flows whole r out) :
    Emits new (shutdownRead me) l flag out fun _ => Lets whole r l flag := by
  unfold shutdownRead
  simp only [emits_bind, emits_inner]
  intro x
  cases x with
  | none => exact ⟨rfl, rfl, h⟩
  | some id =>
    simp only [emits_bind, emits_ask]
    intro y
    cases y with
    | error f => exact ⟨rfl, rfl, h⟩
    | ok _ =>
      -- whatever was held is given up
      have hrest : ∀ l' : Tls.Layer H.Source H.Engine, l'.config = l.config → l'.rxState = .closed → l'.Holds out →
          Emits new (afterRxClosed me) l' flag out fun _ => Lets whole r l flag := fun l' hc hr h' =>
        (emits_afterRxClosed h' fun hr' => hr'.2 hr).mono fun _ _ _ _ h'' => h''.of_same hc
      simp only [emits_bind, emits_get]
      split
      · rename_i hs
        simp only [emits_bind, emits_modify, emits_pure]
        refine hrest _ rfl rfl ⟨h.wellFormed, h.early, fun hr => absurd rfl hr.2, fun _ s hs' => ?_⟩
        change l.session = some s at hs'
        rw [hs] at hs'
        cases hs'
      · simp only [setSession, emits_bind, emits_modify, emits_note]
        refine emits_ackLower (hrest _ rfl rfl ⟨fun s hs' => ?_, h.early, fun hr => absurd rfl hr.2, fun _ s hs' => ?_⟩)
        · cases hs'
          exact ⟨Segments.wellFormed_empty, Segments.wellFormed_empty⟩
        · cases hs'
          rfl

/-- **Every other method** lets plaintext flow, unless it gives the connection up. -/
theorem step_flows (h : l.Flows whole r out) {m : Method} (ha : m ≠ .op .abort) (hd : m ≠ .dealloc)
    (hs : ∀ v, m ≠ .settled v) :
    Emits Tls.Layer.Fresh (step ops me m) l false out fun _ l' flag out' =>
      flag = false → Lets whole r l false l' flag out' := by
  have hbelow : ∀ (o : Op) (x : o.Reply), Emits Tls.Layer.Fresh (below o x : Act H o.Reply) l false out fun _ l' flag out' =>
      flag = false → Lets whole r l false l' flag out' := fun o x => emits_below fun _ _ => ⟨rfl, rfl, h⟩
  cases m with
  | dealloc => exact absurd rfl hd
  | settled v => exact absurd rfl (hs v)
  | op o =>
    cases o with
    | abort => exact absurd rfl ha
    | lower e => exact lower_flows hx hf h e
    | recved n => exact (emits_recved h n).mono fun _ _ _ _ h' _ => h'
    | connect addr => exact (emits_connect h addr).mono fun _ _ _ _ h' _ => h'
    | listen n => exact (emits_listen h n).mono fun _ _ _ _ h' _ => h'
    | close => exact close_flows hx h
    | shutdown dir =>
      cases dir with
      | both => exact close_flows hx h
      | write => exact (shutdownWrite_flows hx h).mono fun _ _ _ _ h' _ => h'
      | read => exact (shutdownRead_flows h).mono fun _ _ _ _ h' _ => h'
    | write data flags => exact (emits_write hx h data).mono fun _ _ _ _ h' _ => h'
    | output =>
      refine (emits_bind _ _).2 ((emits_flush hx h).mono fun _ _ _ _ h' => ?_)
      exact fun _ => h'
    | _ => exact hbelow _ _

end

end Secure

end Conduit
