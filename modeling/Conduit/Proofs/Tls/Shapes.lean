import Conduit.Proofs.Tls.Flows
import Conduit.Proofs.Tls.Life
import Mathlib.Logic.Relation

/-!
# The shape of a TLS layer

What can be told of a layer without a look into its session: its phase, its halves, whether it has a session at all, and
whether an active open waits for an answer.

* `Layer.Blank`: a layer as it is created.
* `Shape.Step`: what becomes of a shape when a layer works.
* `Shape.Turn`: what a method makes of a shape.
* `step_turned`: **every method makes a turn**, whatever the layer is answered, and whether or not there is a connection
  below.
* `Past`: the calls that a layer has had, whatever was below.
-/

namespace Conduit

open Layer Layer.Act

variable {H : Host}

/-! ## Runs of programs that emit -/

theorem Program.Emits.of_yields {α : Type} {new : Tls.Layer H.Source H.Engine → Prop}
    {post : α → Bool → List Bytes → Prop} {p : Program (Layer.io H) α} {t : Trace H} {a : α} (hy : p.Yields t a)
    {flag : Bool} {out : List Bytes} (h : p.Emits new post flag out) :
    post a (flag || Tls.frees t) (out ++ t.flatMap (·.req.parcel)) := by
  induction hy generalizing flag out with
  | done a =>
    show post a (flag || false) (out ++ [])
    rw [Bool.or_false, List.append_nil]
    exact h
  | @ask r next x t a hy ih =>
    have hrest := ih (h.next.2 x)
    have hfrees : Tls.frees (⟨r, x⟩ :: t) = (r.lets || Tls.frees t) := by cases r <;> rfl
    rw [hfrees, List.flatMap_cons, ← Bool.or_assoc, ← List.append_assoc]
    exact hrest

/-- Driving an engine leaves all but the session as it is. -/
theorem Tls.emits_driven {σ α : Type} {new : Tls.Layer H.Source H.Engine → Prop} {flag : Bool} {out : List Bytes}
    (s : Tls.Session H.Engine) (p : Tls.EngineAct H.Shared (H.Engine × α)) {l : σ}
    {post : Tls.Session H.Engine × α → σ → Bool → List Bytes → Prop} (h : ∀ a s', post (s', a) l flag out) :
    Emits new (s.drive p) l flag out post := by
  have hrun : ∀ (p : Tls.EngineAct H.Shared (H.Engine × α)) (f : Tls.Feed)
      {post : H.Engine × α → Tls.Feed → Bool → List Bytes → Prop}, (∀ a f', post a f' flag out) →
      Emits new (p.run Tls.Feed.answer) f flag out post := by
    intro p f post hpost
    induction p generalizing f with
    | done a => exact hpost a f
    | ask r next ih =>
      rw [Program.run_ask, emits_bind]
      cases r with
      | available | peek | pull => exact ih _ _
      | push d => exact Tls.emits_push fun x _ => ih x f
      | note => exact fun _ => ih _ f
      | shared | setShared => exact fun _ => ih _ f
  refine (Program.emits_bind _ _).2 ?_
  exact hrun p ⟨s.rx, s.bytesRead⟩ fun r f' => h r.2 { s with engine := r.1, rx := f'.rx, bytesRead := f'.taken }

namespace Tls

/-! ## Layers as they are created -/

/-- A layer as it is created: it has a fresh session, or is a client that was told no name. -/
structure Layer.Blank {S E : Type} (l : Layer S E) : Prop extends l.Fresh where
  rxState : l.rxState = .opened
  txClosed : l.txClosed = false
  connecting : l.connecting = false
  unnamed : l.session = none → l.serverName = none ∧ l.config.isServer = false

theorem Layer.Blank.sound {S E : Type} {l : Layer S E} (h : l.Blank) : l.Sound := by
  intro s hs
  obtain ⟨e, rfl⟩ := h.session s hs
  exact .ofEngine e

/-- All layers are created blank, wherever their engines come from. -/
theorem Layer.create_blank {S E : Type} {m : Type → Type} [Monad m] [LawfulMonad m]
    (newEngine : Config S → Option ServerName → m (Except Fault E)) (config : Config S) (name : Option String) :
    ∃ p : m (Except Fault { l : Layer S E // l.Blank }),
      Layer.create newEngine config name = (·.map Subtype.val) <$> p := by
  -- a layer with an engine, if there is one
  have hnew : ∀ (n : Option ServerName) (text : Option String), ∃ p : m (Except Fault { l : Layer S E // l.Blank }),
      (do pure ((← newEngine config n).map fun e => { config, session := some (.ofEngine e), serverName := text })) =
        (·.map Subtype.val) <$> p := by
    intro n text
    have hblank : ∀ e : E,
        Layer.Blank ({ config, session := some (.ofEngine e), serverName := text } : Layer S E) := fun e =>
      ⟨⟨rfl, fun s hs => ⟨e, (Option.some.inj hs).symm⟩⟩, rfl, rfl, rfl, nofun⟩
    refine ⟨(·.map fun e => ⟨_, hblank e⟩) <$> newEngine config n, ?_⟩
    rw [Functor.map_map, bind_pure_comp]
    congr 1
    funext x
    cases x <;> rfl
  unfold Layer.create
  dsimp only
  split
  · exact hnew none _
  · rename_i hc
    split
    · refine ⟨pure (.ok ⟨{ config }, ⟨rfl, nofun⟩, rfl, rfl, rfl, fun _ => ⟨rfl, by simpa using hc⟩⟩), ?_⟩
      rw [map_pure]
      rfl
    · split
      · refine ⟨pure (.error .invalidArgument), ?_⟩
        rw [map_pure]
        rfl
      · exact hnew _ _

/-! ## Shapes -/

/-- What can be told of a layer without a look into its session. -/
structure Shape where
  isServer : Bool
  phase : Phase
  rxState : RxState
  txClosed : Bool
  /-- There is a session. -/
  lives : Bool
  /-- An active open has begun and is not answered yet. -/
  connecting : Bool

/-- The shape of a layer. -/
def Layer.shape {S E : Type} (l : Layer S E) : Shape :=
  ⟨l.config.isServer, l.phase, l.rxState, l.txClosed, l.session.isSome, l.connecting⟩

namespace Shape

/-- The receiver has been told the end of the stream. -/
def ended (s : Shape) : Shape := { s with rxState := .closed, lives := s.lives && !s.txClosed }

/-- No more is to be sent. -/
def silenced (s : Shape) : Shape := { s with txClosed := true, lives := s.lives && s.rxState != .closed }

/-- What becomes of a shape when a layer works: the handshake is done, the session fails, the end of the stream is
noticed, and told. -/
inductive Step : Shape → Shape → Prop
  | established {s : Shape} (hp : s.phase = .handshaking) (hl : s.lives = true) :
      Step s { s with phase := .established, connecting := false }
  | broken {s : Shape} (hp : s.phase = .handshaking ∨ s.phase = .established) (hl : s.lives = true) :
      Step s { s with phase := .failed, rxState := .closed, lives := false, connecting := false }
  | queued {s : Shape} (hp : s.phase = .established) (hr : s.rxState = .opened) : Step s { s with rxState := .eofQueued }
  | ended {s : Shape} (hp : s.phase = .established) (hr : s.rxState ≠ .closed) (hl : s.lives = true) : Step s s.ended

/-- Any number of steps. -/
abbrev Steps : Shape → Shape → Prop := Relation.ReflTransGen Step

/-- What a method makes of a shape, and whether the connection is to go because of it. -/
inductive Turn : (m : Method) → m.Reply → Shape → Bool → Shape → Prop
  /-- The layer works. -/
  | worked {m : Method} {r : m.Reply} {s s' : Shape} (hm : m.leaves = false) (hc : ∀ a, m ≠ .op (.connect a))
      (h : Steps s s') : Turn m r s false s'
  /-- The connection below could not be opened. -/
  | unanswered {r : Outcome} {f : Fault} {s : Shape} :
      Turn (.op (.lower (.connected (.error f)))) r s false { s with connecting := false }
  /-- The connection below is lost, or comes to its end before the handshake is done. -/
  | lost {e : Event} {r : Outcome} {s : Shape} (h : e = .eof ∧ s.phase = .handshaking ∨ ∃ f, e = .error f) :
      Turn (.op (.lower e)) r s true { s with lives := false }
  | listened {n : Nat} {s : Shape} (hs : s.isServer = true) :
      Turn (.op (.listen n)) (.ok ()) s false { s with phase := .listening, lives := false }
  | dropped {m : Method} {r : m.Reply} {s : Shape} (hm : m = .op .abort ∨ m = .dealloc) :
      Turn m r s false { s with lives := false }
  | closed {o : Op} {r : o.Reply} {s : Shape} (ho : o = .close ∨ o = .shutdown .both) :
      Turn (.op o) r s true { s with rxState := .closed, txClosed := true, lives := false }
  /-- What was asked for is refused, or was done before. -/
  | kept {m : Method} {r : m.Reply} {s : Shape} (hm : m.leaves = true) : Turn m r s false s
  | silenced {s : Shape} : Turn (.op (.shutdown .write)) (.ok ()) s false s.silenced
  | deafened {s : Shape} : Turn (.op (.shutdown .read)) (.ok ()) s false s.ended
  /-- An active open begins. -/
  | opened {a : Endpoint} {s : Shape} (hs : s.isServer = false) :
      Turn (.op (.connect a)) (.ok ()) s false { s with lives := true, connecting := true }
  /-- It does not, and nothing is different. -/
  | unopened {a : Endpoint} {f : Fault} {s : Shape} : Turn (.op (.connect a)) (.error f) s false s
  /-- There is no connection below, but there is a session now. -/
  | baseless {a : Endpoint} {f : Fault} {s : Shape} (hs : s.isServer = false) :
      Turn (.op (.connect a)) (.error f) s false { s with lives := true }
  /-- The connection below refuses. -/
  | spurned {a : Endpoint} {f : Fault} {s : Shape} (hs : s.isServer = false) :
      Turn (.op (.connect a)) (.error f) s false { s with lives := true, connecting := false }

end Shape

end Tls

namespace Secure

open Tls

variable {ops : EngineOps H.Engine H.Shared} {me : Handle} {new : Tls.Layer H.Source H.Engine → Prop}
  {l l₁ l' : Tls.Layer H.Source H.Engine} {s : Session H.Engine} {flag flag' : Bool} {out : List Bytes}

/-! ## The parts of the methods -/

/-- A layer has worked, and its connection is not to go because of it. -/
def Worked (l : Tls.Layer H.Source H.Engine) (flag : Bool) (l' : Tls.Layer H.Source H.Engine) (flag' : Bool) : Prop :=
  Shape.Steps l.shape l'.shape ∧ flag' = flag

theorem Worked.of_shape (h : l'.shape = l.shape) : Worked l flag l' flag := ⟨h ▸ .refl, rfl⟩

theorem Worked.refl (l : Tls.Layer H.Source H.Engine) : Worked l flag l flag := .of_shape rfl

theorem Worked.of_step (h : Shape.Step l.shape l'.shape) : Worked l flag l' flag := ⟨.single h, rfl⟩

/-- First the layer has come to the shape of `l₁`. -/
theorem Worked.after (h : Worked l₁ flag l' flag') (hs : Shape.Steps l.shape l₁.shape) : Worked l flag l' flag' :=
  ⟨hs.trans h.1, h.2⟩

theorem Worked.of_same (h : Worked l₁ flag l' flag') (hs : l₁.shape = l.shape) : Worked l flag l' flag' :=
  h.after (hs ▸ .refl)

/-- A session goes on. -/
theorem shape_session (hs : l.session = some s) (s' : Session H.Engine) : { l with session := some s' }.shape = l.shape := by
  simp [Tls.Layer.shape, hs]

theorem flush_worked : Emits new (flush ops me) l flag out fun _ l' flag' _ => l'.shape = l.shape ∧ flag' = flag := by
  unfold flush
  simp only [emits_bind, emits_get]
  split
  · exact ⟨rfl, rfl⟩
  · rename_i s hs
    rw [emits_bind]
    refine emits_driven s _ fun sent s' => ?_
    simp only [setSession, emits_bind, emits_modify]
    cases sent with
    | error f => exact ⟨shape_session hs s', rfl⟩
    | ok b =>
      dsimp only
      rw [emits_bind]
      exact emits_outputLower ⟨shape_session hs s', rfl⟩

theorem flushOn_worked (what : String) :
    Emits new (flushOn ops me what) l flag out fun _ l' flag' _ => l'.shape = l.shape ∧ flag' = flag := by
  unfold flushOn
  rw [emits_bind]
  refine flush_worked.mono fun x l' flag' out' h => ?_
  cases x with
  | ok b => exact h
  | error f =>
    dsimp only
    rw [emits_note]
    exact h

theorem afterRxClosed_shape : Emits new (afterRxClosed me) l flag out fun _ l' flag' _ =>
    l'.shape = { l.shape with lives := l.shape.lives && !l.txClosed } ∧ flag' = flag := by
  unfold afterRxClosed
  simp only [emits_bind, emits_get]
  split
  · rename_i hboth
    simp only [emits_bind, emits_modify, emits_note]
    simp only [Bool.and_eq_true] at hboth
    simp [Tls.Layer.shape, hboth.1]
  · rename_i hnot
    rw [emits_pure]
    refine ⟨?_, rfl⟩
    cases ht : l.txClosed <;> cases hs : l.session <;> simp_all [Tls.Layer.shape]

theorem deliverEof_shape (hr : l.rxState ≠ .closed) : Emits new (deliverEof me) l flag out fun _ l' flag' _ =>
    l'.shape = l.shape.ended ∧ flag' = flag := by
  unfold deliverEof
  simp only [emits_bind, emits_get]
  rw [if_neg hr]
  simp only [emits_bind, emits_modify, emits_note, emits_emit]
  exact afterRxClosed_shape.mono fun _ _ _ _ h => h

theorem failSession_worked (hp : l.phase = .handshaking ∨ l.phase = .established) (hs : l.session = some s) (f : Fault) :
    Emits new (failSession me f) l flag out fun _ l' flag' _ => Worked l flag l' flag' := by
  have hstep := Shape.Step.broken (s := l.shape) hp (by simp [Tls.Layer.shape, hs])
  unfold failSession
  simp only [emits_bind, emits_note, emits_modify, emits_get]
  split
  · simp only [emits_bind, emits_modify, emits_emit]
    exact emits_dropLower (.of_step hstep)
  · rename_i hr
    have hr : l.rxState = .closed := by simpa using hr
    refine emits_dropLower (.of_step ?_)
    simpa [Tls.Layer.shape, hr] using hstep

theorem offer_worked (hs : l.session = some s) :
    Emits new (offer s) l flag out fun _ l' flag' _ => Worked l flag l' flag' := by
  unfold offer
  simp only [setSession, emits_bind, emits_modify, emits_emit]
  exact .of_shape (shape_session hs _)

theorem offerHeld_worked : Emits new offerHeld l flag out fun _ l' flag' _ => Worked l flag l' flag' := by
  unfold offerHeld
  simp only [emits_bind, emits_get]
  split
  · rename_i s hs
    split
    · exact .refl l
    · exact offer_worked hs
  · exact .refl l

/-- The next piece of plaintext is opened: the layer goes on, or the session fails, or the end of the stream is told. -/
theorem openRecord_worked (hp : l.phase = .established) (hr : l.rxState ≠ .closed) (hs : l.session = some s) :
    Emits new (openRecord ops me s) l flag out fun _ l' flag' _ => Worked l flag l' flag' := by
  -- the end of the stream, when the session has been `s'` last
  have hend : ∀ s' : Session H.Engine, Emits new (deliverEof me) { l with session := some s' } flag out fun _ l' flag' _ =>
      Worked l flag l' flag' := fun s' =>
    (deliverEof_shape (l := { l with session := some s' }) hr).mono fun _ l' _ _ h => by
      obtain ⟨hshape, rfl⟩ := h
      rw [shape_session hs] at hshape
      exact .of_step (hshape ▸ .ended hp hr (by simp [Tls.Layer.shape, hs]))
  unfold openRecord
  simp only [emits_bind, emits_get]
  refine emits_driven s _ fun outcome s' => ?_
  simp only [setSession, emits_modify]
  cases outcome with
  | error f =>
    exact (failSession_worked (l := { l with session := some s' }) (.inr hp) rfl f).mono fun _ _ _ _ h =>
      h.of_same (shape_session hs s')
  | ok y =>
    cases y with
    | data plain =>
      have hheld : ∀ s' : Session H.Engine, Emits new offerHeld { l with session := some s' } flag out
          fun _ l' flag' _ => Worked l flag l' flag' := fun s' =>
        offerHeld_worked.mono fun _ _ _ _ h => h.of_same (shape_session hs s')
      dsimp only
      simp only [emits_bind, emits_modify]
      split
      · rw [emits_bind]
        exact emits_ackOverhead (hheld _)
      · exact hheld _
    | wouldBlock =>
      have hrest : ∀ s' : Session H.Engine, Emits new (do
          if (← get).rxState = .eofQueued then deliverEof me) { l with session := some s' } flag out
            fun _ l' flag' _ => Worked l flag l' flag' := by
        intro s'
        simp only [emits_bind, emits_get]
        split
        · exact hend s'
        · exact .of_shape (shape_session hs s')
      dsimp only
      split
      · rw [emits_bind]
        exact emits_ackOverhead (hrest _)
      · exact hrest _
    | peerClosed =>
      dsimp only
      simp only [emits_bind]
      refine emits_ackOverhead ?_
      rw [emits_note]
      exact hend _

theorem deliver_worked : Emits new (deliver ops me) l flag out fun _ l' flag' _ => Worked l flag l' flag' := by
  unfold deliver
  simp only [emits_bind, emits_get]
  split
  · exact .refl l
  · rename_i hgo
    obtain ⟨hp, hr⟩ : l.phase = .established ∧ l.rxState ≠ .closed := by simpa using hgo
    split
    · exact .refl l
    · rename_i s hs
      split
      · exact .refl l
      · split
        · exact offer_worked hs
        · exact openRecord_worked hp hr hs

/-- Something has come in: the handshake goes on, or plaintext is handed up. -/
theorem receive_worked : Emits new (receive ops me) l flag out fun _ l' flag' _ => Worked l flag l' flag' := by
  unfold receive
  simp only [emits_bind, emits_get]
  split
  · rename_i hp
    split
    · exact .refl l
    · rename_i s hs
      rw [emits_bind]
      refine emits_driven s _ fun progress s' => ?_
      simp only [setSession, emits_bind, emits_modify]
      refine emits_outputLower (emits_ackLower ?_)
      have hsame := shape_session hs { s' with bytesRead := 0 }
      cases progress with
      | error f =>
        exact (failSession_worked (l := { l with session := some { s' with bytesRead := 0 } }) (.inl hp) rfl f).mono
          fun _ _ _ _ h => h.of_same hsame
      | ok p =>
        cases p with
        | inProgress => exact .of_shape hsame
        | done =>
          have hstep := Shape.Step.established (s := l.shape) hp (by simp [Tls.Layer.shape, hs])
          simp only [emits_bind, establish, emits_modify, emits_get, emits_note]
          split
          · simp only [emits_bind, emits_modify, emits_emit]
            refine deliver_worked.mono fun _ _ _ _ h => h.after (.single ?_)
            simpa [Tls.Layer.shape, hs] using hstep
          · rename_i hc
            rw [emits_pure]
            refine deliver_worked.mono fun _ _ _ _ h => h.after (.single ?_)
            simpa [Tls.Layer.shape, hs, hc] using hstep
  · exact deliver_worked

/-! ## The methods -/

theorem lowerData_worked (data : Bytes) :
    Emits new (lowerData ops me data) l flag out fun _ l' flag' _ => Worked l flag l' flag' := by
  have hdrop : Emits new (dropData me data.length) l flag out fun _ l' flag' _ => Worked l flag l' flag' := by
    unfold dropData
    rw [emits_bind, emits_note]
    exact emits_ackLower (.refl l)
  unfold lowerData
  simp only [emits_bind, emits_get]
  split
  · rename_i s hs
    split
    · simp only [setSession, emits_bind, emits_modify]
      exact receive_worked.mono fun _ _ _ _ h => h.of_same (shape_session hs _)
    · exact hdrop
  · exact hdrop

/-- What a method makes of a layer that was not to go before. -/
def Turned (m : Method) (l : Tls.Layer H.Source H.Engine) (r : m.Reply) (l' : Tls.Layer H.Source H.Engine)
    (flag : Bool) : Prop :=
  Shape.Turn m r l.shape flag l'.shape

theorem Worked.turned {m : Method} {r : m.Reply} (h : Worked l false l' flag) (hm : m.leaves = false)
    (hc : ∀ a, m ≠ .op (.connect a)) : Turned m l r l' flag := by
  obtain ⟨h, rfl⟩ := h
  exact .worked hm hc h

theorem lower_turned (e : Event) :
    Emits Tls.Layer.Fresh (lower ops me e) l false out fun r l' flag _ => Turned (.op (.lower e)) l r l' flag := by
  have hworked : ∀ {x : Outcome} {l' : Tls.Layer H.Source H.Engine} {flag : Bool}, Worked l false l' flag →
      Turned (.op (.lower e)) l x l' flag := fun h => h.turned rfl (by simp)
  unfold lower
  split
  · simp only [emits_bind, emits_get]
    split
    · exact hworked (.refl l)
    · refine (emits_accept _).mono fun _ l' flag out h => hworked ?_
      obtain ⟨rfl, rfl, -⟩ := h
      exact .refl l'
  · simp only [emits_bind, emits_note]
    exact receive_worked.mono fun _ _ _ _ h => hworked h
  · simp only [emits_bind, emits_modify, emits_emit]
    exact .unanswered
  · rw [emits_bind]
    exact (lowerData_worked _).mono fun _ _ _ _ h => hworked h
  · rw [emits_bind]
    unfold lowerEof
    simp only [emits_bind, emits_get]
    split
    · rename_i hp
      split
      · exact hworked (.refl l)
      · rename_i hopened
        simp only [emits_bind, emits_modify, emits_note]
        have hr : l.rxState = .opened := by simpa using hopened
        exact deliver_worked.mono fun _ _ _ _ h => hworked (h.after (.single (.queued hp hr)))
    · rename_i hp
      simp only [emits_bind, emits_note, emits_modify]
      refine emits_dropLower ?_
      rw [emits_fail]
      exact .lost (.inl ⟨rfl, hp⟩)
    · exact hworked (.refl l)
    · exact hworked (.refl l)
  · simp only [emits_bind, emits_note]
    refine (flushOn_worked _).mono fun _ l' flag' out' h => ?_
    obtain ⟨hshape, rfl⟩ := h
    simp only [emits_get]
    split
    · simp only [emits_bind, emits_emit]
      exact hworked (.of_shape hshape)
    · exact hworked (.of_shape hshape)
  · simp only [emits_bind]
    refine (flushOn_worked _).mono fun _ l' flag' out' h => ?_
    obtain ⟨hshape, rfl⟩ := h
    refine deliver_worked.mono fun _ _ _ _ h => ?_
    exact hworked (h.of_same hshape)
  · simp only [emits_bind, emits_note, emits_modify, emits_fail]
    exact .lost (.inr ⟨_, rfl⟩)

theorem settle_worked (v : Outcome) :
    Emits new (settle ops me v) l flag out fun _ l' flag' _ => Worked l flag l' flag' := by
  unfold settle
  simp only [emits_bind, emits_get]
  split
  · exact .refl l
  · rename_i s hs
    split
    · exact .refl l
    · split
      · simp only [setSession, emits_bind, emits_modify]
        exact deliver_worked.mono fun _ _ _ _ h => h.of_same (shape_session hs _)
      · simp only [setSession, emits_bind, emits_modify, emits_note]
        exact .of_shape (shape_session hs _)

theorem recved_worked (n : Nat) :
    Emits new (recved me n) l flag out fun _ l' flag' _ => Worked l flag l' flag' := by
  unfold recved
  simp only [emits_bind, emits_get]
  split
  · rename_i s hp hs
    split
    · simp only [setSession, emits_bind, emits_note, emits_modify]
      exact emits_ackLower (.of_shape (shape_session hs _))
    · simp only [setSession, emits_bind, emits_modify]
      exact emits_ackLower (.of_shape (shape_session hs _))
  · exact .refl l

/-- The rest of a connect, when there is a session. -/
def connectBelow (a : Endpoint) : Act H Outcome := do
  match ← inner with
  | none => pure (.error .invalidArgument)
  | some id =>
    modify fun l => { l with connecting := true }
    match ← ask id (.connect a) with
    | .ok () => pure (.ok ())
    | .error f =>
      modify fun l => { l with connecting := false }
      pure (.error f)

theorem connectBelow_turned {l₁ : Tls.Layer H.Source H.Engine} (hc : l.config.isServer = false)
    (hl₁ : l₁.shape = { l.shape with lives := true }) (a : Endpoint) :
    Emits new (connectBelow a) l₁ false out fun r l' flag _ => Turned (.op (.connect a)) l r l' flag := by
  unfold connectBelow
  simp only [emits_bind, emits_inner]
  intro x
  cases x with
  | none =>
    show Shape.Turn _ _ _ _ l₁.shape
    rw [hl₁]
    exact .baseless hc
  | some id =>
    simp only [emits_bind, emits_modify, emits_ask]
    intro y
    cases y with
    | ok _ =>
      show Shape.Turn _ _ _ _ { l₁.shape with connecting := true }
      rw [hl₁]
      exact .opened hc
    | error f =>
      simp only [emits_bind, emits_modify]
      show Shape.Turn _ _ _ _ { l₁.shape with connecting := false }
      rw [hl₁]
      exact .spurned hc

theorem connect_turned (a : Endpoint) :
    Emits new (connect a) l false out fun r l' flag _ => Turned (.op (.connect a)) l r l' flag := by
  unfold connect
  simp only [emits_bind, emits_get]
  split
  · exact .unopened
  · rename_i hc
    have hc : l.config.isServer = false := by simpa using hc
    split
    · rename_i s hs
      exact connectBelow_turned hc (by simp [Tls.Layer.shape, hs]) a
    · simp only [emits_bind, emits_newEngine]
      intro x
      cases x with
      | error f => exact .unopened
      | ok e =>
        simp only [emits_bind, emits_modify]
        exact connectBelow_turned hc rfl a

theorem listen_turned (n : Nat) :
    Emits new (listen n) l false out fun r l' flag _ => Turned (.op (.listen n)) l r l' flag := by
  unfold listen
  simp only [emits_bind, emits_get]
  split
  · exact (Worked.refl l).turned rfl (by simp)
  · rename_i hs
    have hs : l.config.isServer = true := by simpa using hs
    simp only [emits_bind, emits_inner]
    intro x
    cases x with
    | none => exact (Worked.refl l).turned rfl (by simp)
    | some id =>
      simp only [emits_bind, emits_ask]
      intro y
      cases y with
      | error f => exact (Worked.refl l).turned rfl (by simp)
      | ok _ =>
        simp only [emits_bind, emits_modify]
        exact .listened hs

theorem sendCloseNotify_worked :
    Emits new (sendCloseNotify ops me) l flag out fun _ l' flag' _ => l'.shape = l.shape ∧ flag' = flag := by
  unfold sendCloseNotify
  simp only [emits_bind, emits_get]
  split
  · rename_i s hp hs
    split
    · exact ⟨rfl, rfl⟩
    · simp only [setSession, emits_bind, emits_modify]
      refine flush_worked.mono fun x l' flag' out' h => ?_
      obtain ⟨hshape, rfl⟩ := h
      have hsame := hshape.trans (shape_session hs { s with closeNotifySent := true, engine := ops.closeNotify s.engine })
      cases x with
      | ok b => exact ⟨hsame, rfl⟩
      | error f =>
        dsimp only
        rw [emits_note]
        exact ⟨hsame, rfl⟩
  · exact ⟨rfl, rfl⟩

theorem close_turned {o : Op} (ho : o = .close ∨ o = .shutdown .both) (hx : o.Reply = Outcome) :
    Emits new (close ops me) l false out fun r l' flag _ => Turned (.op o) l (cast hx.symm r) l' flag := by
  have hkept : ∀ {r : o.Reply} {l' : Tls.Layer H.Source H.Engine}, l'.shape = l.shape → Turned (.op o) l r l' false := by
    intro r l' h
    show Shape.Turn _ _ _ _ l'.shape
    rw [h]
    exact .kept (by rcases ho with rfl | rfl <;> rfl)
  have hgone : ∀ {r : o.Reply} {l' : Tls.Layer H.Source H.Engine}, l'.shape = l.shape →
      Turned (.op o) l r { l' with session := none, txClosed := true, rxState := .closed } true := by
    intro r l' h
    have hturn := Shape.Turn.closed (r := r) (s := l'.shape) ho
    show Shape.Turn _ _ _ _ _
    rw [← h]
    exact hturn
  unfold close
  simp only [emits_bind]
  refine sendCloseNotify_worked.mono fun _ l₁ flag out h => ?_
  obtain ⟨hshape, rfl⟩ := h
  simp only [emits_inner]
  intro x
  cases x with
  | none =>
    simp only [emits_bind, emits_pure, emits_get, emits_note, emits_modify, emits_release]
    exact hgone hshape
  | some id =>
    simp only [emits_bind, emits_ask]
    intro y
    cases y with
    | ok _ =>
      simp only [emits_bind, emits_get, emits_note, emits_modify, emits_release]
      exact hgone hshape
    | error f => exact hkept hshape

theorem shutdownWrite_turned :
    Emits new (shutdownWrite ops me) l false out fun r l' flag _ => Turned (.op (.shutdown .write)) l r l' flag := by
  have hkept : ∀ {r : Outcome} {l' : Tls.Layer H.Source H.Engine}, l'.shape = l.shape →
      Turned (.op (.shutdown .write)) l r l' false := by
    intro r l' h
    show Shape.Turn _ _ _ _ l'.shape
    rw [h]
    exact .kept rfl
  unfold shutdownWrite
  simp only [emits_bind, emits_get]
  split
  · exact hkept rfl
  · simp only [emits_bind]
    refine sendCloseNotify_worked.mono fun _ l₁ flag out h => ?_
    obtain ⟨hshape, rfl⟩ := h
    simp only [emits_inner]
    intro x
    cases x with
    | none => exact hkept hshape
    | some id =>
      simp only [emits_bind, emits_ask]
      intro y
      cases y with
      | error f => exact hkept hshape
      | ok _ =>
        have hturn := Shape.Turn.silenced (s := l.shape)
        rw [← hshape] at hturn
        simp only [emits_bind, emits_modify, emits_get]
        split
        · rename_i hr
          simp only [emits_bind]
          refine afterRxClosed_shape.mono fun _ l₂ flag out h => ?_
          obtain ⟨h₂, rfl⟩ := h
          show Shape.Turn _ _ _ _ l₂.shape
          rw [h₂, ← hshape]
          simpa [Shape.silenced, Tls.Layer.shape, hr] using hturn
        · rename_i hr
          have hopen : (l₁.rxState != .closed) = true := by simpa using hr
          show Shape.Turn _ _ _ _ _
          rw [← hshape]
          simpa [Shape.silenced, Tls.Layer.shape, hopen] using hturn

theorem shutdownRead_turned :
    Emits new (shutdownRead me) l false out fun r l' flag _ => Turned (.op (.shutdown .read)) l r l' flag := by
  -- the end of the stream, when all that was held is acknowledged
  have hend : ∀ l₁ : Tls.Layer H.Source H.Engine, l₁.shape = l.shape → Emits new (do
      modify fun l => { l with rxState := .closed }
      afterRxClosed me
      pure (.ok ())) l₁ false out fun r l' flag _ => Turned (.op (.shutdown .read)) l r l' flag := by
    intro l₁ h
    simp only [emits_bind, emits_modify]
    refine afterRxClosed_shape.mono fun _ l₂ flag out h₂ => ?_
    obtain ⟨h₂, rfl⟩ := h₂
    have hturn := Shape.Turn.deafened (s := l.shape)
    show Shape.Turn _ _ _ _ l₂.shape
    rw [h₂]
    rw [← h] at hturn ⊢
    exact hturn
  have hkept : ∀ {r : Outcome}, Turned (.op (.shutdown .read)) l r l false := .kept rfl
  unfold shutdownRead
  simp only [emits_bind, emits_inner]
  intro x
  cases x with
  | none => exact hkept
  | some id =>
    simp only [emits_bind, emits_ask]
    intro y
    cases y with
    | error f => exact hkept
    | ok _ =>
      simp only [emits_bind, emits_get]
      split
      · exact hend l rfl
      · rename_i s hs
        simp only [setSession, emits_bind, emits_modify, emits_note] at hend ⊢
        exact emits_ackLower (hend _ (shape_session hs _))

theorem encrypt_worked (data : Bytes) (clear : Except Fault Bool) :
    Emits new (encrypt ops me data clear) l flag out fun _ l' flag' _ => l'.shape = l.shape ∧ flag' = flag := by
  unfold encrypt
  split
  · exact ⟨rfl, rfl⟩
  · rw [emits_bind, emits_note]
    exact ⟨rfl, rfl⟩
  · simp only [emits_bind, emits_get]
    split
    · exact ⟨rfl, rfl⟩
    · rename_i s hs
      simp only [setSession, emits_bind, emits_modify]
      split
      · exact ⟨shape_session hs _, rfl⟩
      · split
        · rw [emits_bind, emits_note]
          exact ⟨shape_session hs _, rfl⟩
        · simp only [emits_bind, emits_modify]
          refine flush_worked.mono fun _ l' flag' out' h => ?_
          exact ⟨h.1.trans (shape_session hs _), h.2⟩

theorem write_worked (data : Bytes) :
    Emits new (write ops me data) l flag out fun _ l' flag' _ => l'.shape = l.shape ∧ flag' = flag := by
  unfold write
  simp only [emits_bind, emits_get]
  split
  · exact ⟨rfl, rfl⟩
  · exact ⟨rfl, rfl⟩
  · exact ⟨rfl, rfl⟩
  · split
    · exact ⟨rfl, rfl⟩
    · split
      · exact ⟨rfl, rfl⟩
      · split
        · rw [emits_bind]
          refine flush_worked.mono fun x l₁ flag₁ out₁ h => ?_
          obtain ⟨hshape, rfl⟩ := h
          exact (encrypt_worked data x).mono fun _ _ _ _ h => ⟨h.1.trans hshape, h.2⟩
        · exact encrypt_worked data (.ok true)

/-- **Every method makes a turn**, whatever the layer is answered. -/
theorem step_turned (m : Method) :
    Emits Tls.Layer.Fresh (step ops me m) l false out fun r l' flag _ => Turned m l r l' flag := by
  have hbelow : ∀ (o : Op) (x : o.Reply), (Method.op o).leaves = false → (∀ a, o ≠ .connect a) →
      Emits Tls.Layer.Fresh (below o x : Act H o.Reply) l false out fun r l' flag _ => Turned (.op o) l r l' flag :=
    fun o x ho hc => emits_below fun _ => (Worked.refl l).turned ho (by simpa using hc)
  have hdropped : ∀ {m : Method} {r : m.Reply}, m = .op .abort ∨ m = .dealloc →
      Turned m l r { l with session := none } false := .dropped
  cases m with
  | settled v => exact (settle_worked v).mono fun _ _ _ _ h => h.turned rfl (by simp)
  | dealloc =>
    show Emits Tls.Layer.Fresh (do
      if (← get).session.isSome then
        modify fun l => { l with session := none }
        note (.trace "tls session state dropped" [me.field])) l false out _
    simp only [emits_bind, emits_get]
    split
    · simp only [emits_bind, emits_modify, emits_note]
      exact hdropped (.inr rfl)
    · exact .kept rfl
  | op o =>
    cases o with
    | lower e => exact lower_turned e
    | recved n => exact (recved_worked n).mono fun _ _ _ _ h => h.turned rfl (by simp)
    | connect a => exact connect_turned a
    | listen n => exact listen_turned n
    | abort =>
      show Emits Tls.Layer.Fresh (abort me) l false out _
      unfold abort
      simp only [emits_bind, emits_modify, emits_inner]
      intro x
      cases x with
      | none =>
        rw [emits_note]
        exact hdropped (.inl rfl)
      | some id =>
        simp only [emits_bind, emits_ask, emits_note]
        exact fun _ => hdropped (.inl rfl)
    | close => exact close_turned (.inl rfl) rfl
    | shutdown dir =>
      cases dir with
      | both => exact close_turned (o := .shutdown .both) (.inr rfl) rfl
      | write => exact shutdownWrite_turned
      | read => exact shutdownRead_turned
    | write data flags =>
      refine (write_worked data).mono fun _ l' _ _ h => ?_
      obtain ⟨hshape, rfl⟩ := h
      exact (Worked.of_shape hshape).turned rfl (by simp)
    | output =>
      refine (emits_bind _ _).2 (flush_worked.mono fun _ l' _ _ h => ?_)
      obtain ⟨hshape, rfl⟩ := h
      exact (Worked.of_shape hshape).turned rfl (by simp)
    | _ => exact hbelow _ _ rfl (by simp)

end Secure

namespace Tls

/-! ## Lives over anything -/

variable {ops : EngineOps H.Engine H.Shared} {b me : Handle} {l₀ l l' : Layer H.Source H.Engine} {h : List (Call H)}

/-- The calls of a layer that began as `l₀`, whatever was below. A layer that has asked to be freed is not called again. -/
inductive Past (ops : EngineOps H.Engine H.Shared) (me : Handle) (l₀ : Layer H.Source H.Engine) :
    List (Call H) → Layer H.Source H.Engine → Prop
  | start : Past ops me l₀ [] l₀
  | call {h : List (Call H)} {l l' : Layer H.Source H.Engine} {m : Method} {r : m.Reply} {t : Trace H}
      (hl : Past ops me l₀ h l) (hf : ∀ c ∈ h, frees c.trace = false)
      (hy : (Secure.step ops me m l).Yields t (r, l')) : Past ops me l₀ (h ++ [⟨l, m, r, t, l'⟩]) l'

theorem Life.past (hl : Life ops b me l₀ h l) : Past ops me l₀ h l := by
  induction hl with
  | start => exact .start
  | call _ hf hy _ ih => exact ih.call hf hy

/-- Over a connection below, that is a life. -/
theorem Past.life (hl : Past ops me l₀ h l) (hb : ∀ c ∈ h, Over b c.trace) : Life ops b me l₀ h l := by
  induction hl with
  | start => exact .start
  | call _ hf hy ih =>
    rw [List.forall_mem_append] at hb
    exact (ih hb.1).call hf hy (hb.2 _ (List.mem_singleton.2 rfl))

/-- Such calls are taken apart at any of them. -/
theorem Past.amid {past future : List (Call H)} {c : Call H} (hl : Past ops me l₀ (past ++ c :: future) l) :
    Past ops me l₀ past c.before ∧ (Secure.step ops me c.method c.before).Yields c.trace (c.reply, c.after) ∧
      Past ops me c.after future l := by
  generalize hh : past ++ c :: future = h at hl
  induction hl generalizing future with
  | start => simp at hh
  | call hl hf hy ih =>
    rcases List.eq_nil_or_concat future with rfl | ⟨future', x, rfl⟩
    · obtain ⟨rfl, hx⟩ := List.append_inj' hh rfl
      cases hx
      exact ⟨hl, hy, .start⟩
    · rw [List.concat_eq_append, ← List.cons_append, ← List.append_assoc] at hh
      obtain ⟨rfl, hx⟩ := List.append_inj' hh rfl
      cases hx
      obtain ⟨hbefore, hyields, hafter⟩ := ih rfl
      rw [List.concat_eq_append]
      exact ⟨hbefore, hyields, hafter.call (fun d hd => hf d (by simp [hd])) hy⟩

/-- The turn that a call makes. -/
theorem Call.turn {m : Method} {r : m.Reply} {t : Trace H} (hy : (Secure.step ops me m l).Yields t (r, l')) :
    Shape.Turn m r l.shape (frees t) l'.shape := by
  have hturned : Emits Tls.Layer.Fresh (Secure.step ops me m) l false [] fun r l' flag _ => Secure.Turned m l r l' flag :=
    Secure.step_turned m
  have hturn := Program.Emits.of_yields hy hturned
  rwa [Bool.false_or] at hturn

end Tls

end Conduit
