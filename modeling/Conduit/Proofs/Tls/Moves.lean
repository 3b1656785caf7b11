import Conduit.Proofs.Tls.Works

/-!
# Moves of a TLS layer

All that a TLS layer can do, as a relation on its states labelled with what it asks of its surroundings.

* `Enter`: what a method does first, with what it was called for.
* `Move`: what a layer does then, one thing at a time.
* `step_does`: **a method that does not end the connection enters, and then moves.** Every invariant of a layer is
  proved over these two relations.
-/

namespace Conduit

/-- Whether the receiver's end of the connection is untouched by a method: it brings no ciphertext, no end, no verdict
and no acknowledgement. -/
def Method.isQuiet : Method → Bool
  | .op (.lower (.recv _)) | .op (.lower .eof) | .op (.lower (.error _)) | .op (.recved _) | .settled _ => false
  | .op .abort | .op .close | .op (.shutdown _) | .dealloc => false
  | _ => true

/-- Whether a method closes a half of the connection or more. -/
def Method.leaves : Method → Bool
  | .op .abort | .op .close | .op (.shutdown _) | .dealloc => true
  | _ => false

/-- Whether an operation moves no data and closes nothing. -/
def Op.isIdle : Op → Bool
  | .lower _ | .recved _ | .abort | .close | .shutdown _ | .write _ _ => false
  | _ => true

open Layer Layer.Act

namespace Tls

/-! ## States -/

namespace Session

variable {E : Type} {s : Session E}

/-- Plaintext was opened. -/
def opened (s : Session E) (plain : Bytes) : Session E :=
  { s with rxApp := s.rxApp.push plain, bytesAppl := s.bytesAppl + plain.length }

theorem opened_nil (s : Session E) : s.opened [] = s := by
  simp [opened, Segments.push]

/-- A record is complete. -/
def recordDone (s : Session E) : Session E := { s with bytesRead := 0, bytesAppl := 0 }

/-- All plaintext was handed up. -/
def offered (s : Session E) : Session E :=
  { s with passedUnrecved := s.passedUnrecved + s.rxApp.size, inFlight := some s.rxApp.size }

/-- The chains are well formed, and a delivery that is out is all that is held. -/
structure Sound (s : Session E) : Prop where
  rx : s.rx.WellFormed
  rxApp : s.rxApp.WellFormed
  inFlight : ∀ n, s.inFlight = some n → n = s.rxApp.size

theorem Sound.worked (h : s.Sound) {e : E} {rx : Segments} (hrx : rx.WellFormed) : (s.worked e rx).Sound :=
  ⟨hrx, h.rxApp, h.inFlight⟩

theorem Sound.opened (h : s.Sound) (hf : s.inFlight = none) {plain : Bytes} : (s.opened plain).Sound :=
  ⟨h.rx, h.rxApp.push, fun n hn => by simp [Session.opened, hf] at hn⟩

theorem Sound.recordDone (h : s.Sound) : s.recordDone.Sound := ⟨h.rx, h.rxApp, h.inFlight⟩

theorem Sound.offered (h : s.Sound) : s.offered.Sound := ⟨h.rx, h.rxApp, fun _ hn => (Option.some.inj hn).symm⟩

theorem Sound.ofEngine (e : E) : (Session.ofEngine e).Sound :=
  ⟨Segments.wellFormed_default, Segments.wellFormed_default, fun _ hn => by cases hn⟩

end Session

namespace Layer

variable {S E : Type} {l : Layer S E} {s : Session E}

/-- With the session `s`. -/
def holding (l : Layer S E) (s : Session E) : Layer S E := { l with session := some s }

/-- The receiver has been told the end of the stream. -/
def ended (l : Layer S E) : Layer S E :=
  { l with rxState := .closed, session := if l.txClosed then none else l.session }

/-- The session has failed. -/
def broken (l : Layer S E) : Layer S E :=
  { l with phase := .failed, rxState := .closed, session := none, connecting := false }

/-- The session, if there is one, is sound. -/
def Sound (l : Layer S E) : Prop := ∀ s, l.session = some s → s.Sound

theorem Sound.holding (h : s.Sound) : (l.holding s).Sound := by
  rintro s' ⟨⟩
  exact h

theorem session_of_ended (h : l.ended.session = some s) : l.session = some s := by
  unfold Layer.ended at h
  simp only at h
  split at h
  · cases h
  · exact h

theorem Sound.ended (h : l.Sound) : l.ended.Sound := fun s hs => h s (session_of_ended hs)

theorem Sound.of_none (h : l.session = none) : l.Sound := by
  intro s hs
  rw [h] at hs
  cases hs

end Layer

/-! ## What a layer asks -/

variable {H : Host} {b : Handle}

/-- The acknowledgement of `n` bytes below. -/
inductive Acks (b : Handle) : Nat → Trace H → Prop
  | none : Acks b 0 []
  | some {n : Nat} (h : n ≠ 0) : Acks b n [⟨.ask b (.recved n), ()⟩]

/-- The end of the connection below, by force if need be. -/
inductive Drops (b : Handle) : Trace H → Prop
  | closed : Drops b [⟨.ask b .close, .ok ()⟩]
  | aborted (f : Fault) : Drops b [⟨.ask b .close, .error f⟩, ⟨.ask b .abort, ()⟩]

/-- Requests that carry nothing of what the peer sends. -/
inductive Idle (b : Handle) : Exchange (io H) → Prop
  | ask {o : Op} (ho : o.isIdle) (x : o.Reply) : Idle b ⟨.ask b o, x⟩
  | emit {e : Event} (hr : ∀ d, e ≠ .recv d) (he : e ≠ .eof) : Idle b ⟨.emit e, ()⟩
  | cover (new : Handle) (l : Layer H.Source H.Engine) (x : Except Fault Handle) : Idle b ⟨.cover new l, x⟩
  | newEngine (c : Config H.Source) (name : Option ServerName) (x : Except Fault H.Engine) :
      Idle b ⟨.newEngine c name, x⟩

/-- The end of a record, if the engine holds no more of its plaintext. -/
inductive Completes (b : Handle) (s : Session H.Engine) (held : Nat) : Trace H → Session H.Engine → Prop
  | partly (h : held ≠ 0) : Completes b s held [] s
  | fully (h : held = 0) {u : Trace H} (hu : Acks b (s.bytesRead - s.bytesAppl) u) : Completes b s held u s.recordDone

/-- The loss of a session. -/
inductive Breaks (b : Handle) : RxState → Trace H → Prop
  | told {r : RxState} (hr : r ≠ .closed) {u : Trace H} (hu : Drops b u) : Breaks b r (⟨.emit .eof, ()⟩ :: u)
  | known {u : Trace H} (hu : Drops b u) : Breaks b .closed u

/-- The phase after a step of the handshake. -/
def Progress.phase : Progress → Phase
  | .inProgress => .handshaking
  | .done => .established

/-! ## Moves -/

variable (ops : EngineOps H.Engine H.Shared)

/-- With nothing left to hand up, the engine is run for the next piece of plaintext. -/
inductive Opens (b : Handle) (l : Layer H.Source H.Engine) (s : Session H.Engine) (r : Except Fault Decrypted)
    (u : Trace H) (s' : Session H.Engine) : Prop
  | intro (hp : l.phase = .established) (hr : l.rxState ≠ .closed) (hs : l.session = some s) (hf : s.inFlight = none)
      (ha : s.rxApp.toList = []) (n : Nat) (hd : Drives b s (ops.decrypt s.engine n) r u s')
      (hn : n = l.config.options.rxChunkSize)

/-- What a layer does by itself, one thing at a time. -/
inductive Move (b : Handle) : Layer H.Source H.Engine → Trace H → Layer H.Source H.Engine → Prop
  | idle {l : Layer H.Source H.Engine} {x : Exchange (io H)} (hx : Idle b x) : Move b l [x] l
  | connecting {l : Layer H.Source H.Engine} (c : Bool) : Move b l [] { l with connecting := c }
  | shaken {l : Layer H.Source H.Engine} {s s' : Session H.Engine} {p : Progress} {u v : Trace H}
      (hp : l.phase = .handshaking) (hs : l.session = some s) (hd : Drives b s (ops.handshake s.engine) (.ok p) u s')
      (x : Outcome) (hv : Acks b s'.bytesRead v) :
      Move b l (u ++ ⟨.ask b .output, x⟩ :: v) { l with phase := p.phase, session := some { s' with bytesRead := 0 } }
  | unshaken {l : Layer H.Source H.Engine} {s s' : Session H.Engine} {f : Fault} {u v w : Trace H}
      (hp : l.phase = .handshaking) (hs : l.session = some s) (hd : Drives b s (ops.handshake s.engine) (.error f) u s')
      (x : Outcome) (hv : Acks b s'.bytesRead v) (hw : Breaks b l.rxState w) :
      Move b l (u ++ ⟨.ask b .output, x⟩ :: v ++ w) l.broken
  | sealed {l : Layer H.Source H.Engine} {s : Session H.Engine} (data : Bytes) (sent : Bool) (hs : l.session = some s)
      (hsent : s.applDataSent = true → sent = true) (ht : l.txClosed = false) :
      Move b l [] (l.holding { s with engine := (ops.encrypt s.engine data).1, applDataSent := sent })
  | flushed {l : Layer H.Source H.Engine} {s s' : Session H.Engine} {r : Except Fault Bool} {u : Trace H}
      (hs : l.session = some s) (hd : Drives b s (ops.flush s.engine) r u s') : Move b l u (l.holding s')
  | offered {l : Layer H.Source H.Engine} {s : Session H.Engine} (hp : l.phase = .established)
      (hr : l.rxState ≠ .closed) (hs : l.session = some s) (hf : s.inFlight = none) (ha : s.rxApp.toList ≠ []) :
      Move b l [⟨.emit (.recv s.rxApp.toList), ()⟩] (l.holding s.offered)
  | opened {l : Layer H.Source H.Engine} {s s₁ s' : Session H.Engine} {plain : Bytes} {u v : Trace H}
      (ho : Opens ops b l s (.ok (.data plain)) u s₁)
      (hv : Completes b (s₁.opened plain) (ops.buffered s₁.engine) v s') : Move b l (u ++ v) (l.holding s')
  | stalled {l : Layer H.Source H.Engine} {s s₁ s' : Session H.Engine} {u v : Trace H}
      (ho : Opens ops b l s (.ok .wouldBlock) u s₁) (hr : l.rxState ≠ .eofQueued)
      (hv : Completes b s₁ (ops.buffered s₁.engine) v s') : Move b l (u ++ v) (l.holding s')
  | drained {l : Layer H.Source H.Engine} {s s₁ s' : Session H.Engine} {u v : Trace H}
      (ho : Opens ops b l s (.ok .wouldBlock) u s₁) (hr : l.rxState = .eofQueued)
      (hv : Completes b s₁ (ops.buffered s₁.engine) v s') :
      Move b l (u ++ v ++ [⟨.emit .eof, ()⟩]) (l.holding s').ended
  | finished {l : Layer H.Source H.Engine} {s s' : Session H.Engine} {u v : Trace H}
      (ho : Opens ops b l s (.ok .peerClosed) u s') (hv : Acks b (s'.bytesRead - s'.bytesAppl) v) :
      Move b l (u ++ v ++ [⟨.emit .eof, ()⟩]) (l.holding s'.recordDone).ended
  | unopened {l : Layer H.Source H.Engine} {s s' : Session H.Engine} {f : Fault} {u v : Trace H}
      (ho : Opens ops b l s (.error f) u s') (hv : Breaks b l.rxState v) : Move b l (u ++ v) l.broken

/-- Any number of moves. -/
inductive Moves (b : Handle) : Layer H.Source H.Engine → Trace H → Layer H.Source H.Engine → Prop
  | refl (l : Layer H.Source H.Engine) : Moves b l [] l
  | step {l l₁ l' : Layer H.Source H.Engine} {d d' : Trace H} (h : Move ops b l d l₁) (hs : Moves b l₁ d' l') :
      Moves b l (d ++ d') l'

/-- What a method does first. -/
inductive Enter (b : Handle) : Method → Layer H.Source H.Engine → Trace H → Layer H.Source H.Engine → Prop
  | quiet {m : Method} {l : Layer H.Source H.Engine} (hm : m.isQuiet) : Enter b m l [] l
  | arrived {l : Layer H.Source H.Engine} {s : Session H.Engine} {data : Bytes} (hs : l.session = some s)
      (hr : l.rxState ≠ .closed) :
      Enter b (.op (.lower (.recv data))) l [] (l.holding { s with rx := s.rx.push data })
  | dropped {l : Layer H.Source H.Engine} {data : Bytes} {u : Trace H} (h : l.session = none ∨ l.rxState = .closed)
      (hu : Acks b data.length u) : Enter b (.op (.lower (.recv data))) l u l
  | finished {l : Layer H.Source H.Engine} (hp : l.phase = .established) (hr : l.rxState = .opened) :
      Enter b (.op (.lower .eof)) l [] { l with rxState := .eofQueued }
  | unfinished {l : Layer H.Source H.Engine} (hp : l.phase ≠ .handshaking)
      (hr : l.phase = .established → l.rxState ≠ .opened) : Enter b (.op (.lower .eof)) l [] l
  | cut {l : Layer H.Source H.Engine} {u : Trace H} (hp : l.phase = .handshaking) (hu : Drops b u) :
      Enter b (.op (.lower .eof)) l (u ++ [⟨.fail .closed, ()⟩]) { l with session := none }
  | lost {l : Layer H.Source H.Engine} {f : Fault} :
      Enter b (.op (.lower (.error f))) l [⟨.fail f, ()⟩] { l with session := none }
  | taken {l : Layer H.Source H.Engine} {s : Session H.Engine} {n : Nat} (hs : l.session = some s)
      (hf : s.inFlight = some n) :
      Enter b (.settled (.ok ())) l [] (l.holding { s with inFlight := none, rxApp := s.rxApp.advance n })
  | refused {l : Layer H.Source H.Engine} {s : Session H.Engine} {n : Nat} {f : Fault} (hs : l.session = some s)
      (hf : s.inFlight = some n) :
      Enter b (.settled (.error f)) l []
        (l.holding { s with inFlight := none, passedUnrecved := s.passedUnrecved - n })
  | unasked {l : Layer H.Source H.Engine} {v : Outcome} (h : ∀ s, l.session = some s → s.inFlight = none) :
      Enter b (.settled v) l [] l
  | recved {l : Layer H.Source H.Engine} {s : Session H.Engine} {n : Nat} {u : Trace H} (hp : l.phase = .established)
      (hs : l.session = some s) (hu : Acks b (min n s.passedUnrecved) u) :
      Enter b (.op (.recved n)) l u (l.holding { s with passedUnrecved := s.passedUnrecved - min n s.passedUnrecved })
  | unrecved {l : Layer H.Source H.Engine} {n : Nat} (h : l.phase = .established → l.session = none) :
      Enter b (.op (.recved n)) l [] l

/-- What a method does: it enters, and then the layer moves; or a client draws its engine and connects, or a server
begins to listen. -/
inductive Turns (b : Handle) : Method → Layer H.Source H.Engine → Trace H → Layer H.Source H.Engine → Prop
  | moved {m : Method} {l l₁ l' : Layer H.Source H.Engine} {d d' : Trace H} (he : Enter b m l d l₁)
      (hm : Moves ops b l₁ d' l') : Turns b m l (d ++ d') l'
  | drawn {l : Layer H.Source H.Engine} {a : Endpoint} {name : Option ServerName} {text : Option String} {e : H.Engine}
      (hs : l.session = none) (x : Outcome) (c : Bool) :
      Turns b (.op (.connect a)) l [⟨.newEngine l.config name, .ok e⟩, ⟨.ask b (.connect a), x⟩]
        { l with session := some (.ofEngine e), serverName := text, connecting := c }
  | listened {l : Layer H.Source H.Engine} {n : Nat} :
      Turns b (.op (.listen n)) l [⟨.ask b (.listen n), .ok ()⟩] { l with phase := .listening, session := none }

end Tls

end Conduit
