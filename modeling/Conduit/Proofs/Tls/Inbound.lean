import Conduit.Proofs.Tls.Conservation

/-!
# The inbound stream

What the receiver above a TLS layer sees is the plaintext of what has arrived: in order, each byte once, and the end of
the stream last.

* `Happening`, `Reception`: what the receiver sees, and what it makes of it.
* `Reception.Allows`: what may happen next.
* `Tracks`: how far the layer and its receiver agree. `Move.tracks`, `Enter.tracks`: what a turn does to it.
* `Life.in_order`: **at every moment of a life, only what is allowed happens.**
-/

namespace Conduit

open Layer

/-! ## Receivers -/

/-- What happens between a layer and its receiver. -/
inductive Happening
  /-- Ciphertext arrives. -/
  | arrives (data : Bytes)
  /-- Plaintext is handed up. -/
  | offers (data : Bytes)
  /-- What was handed up is taken or refused. -/
  | settles (taken : Bool)
  /-- The end of the stream is handed up, at the end of the stream or because the session has failed. -/
  | ends (failed : Bool)
  deriving DecidableEq

/-- What a receiver has seen. -/
structure Reception where
  arrived : Bytes := []
  /-- What it has accepted. -/
  accepted : Bytes := []
  /-- What was handed up and is neither accepted nor refused. -/
  offer : Option Bytes := none
  /-- What it refused last, until something is handed up again. -/
  refused : Option Bytes := none
  ended : Bool := false

namespace Reception

/-- What a receiver has seen after one more happening. -/
def next (r : Reception) : Happening → Reception
  | .arrives data => { r with arrived := r.arrived ++ data }
  | .offers data => { r with offer := some data, refused := none }
  | .settles true => { r with accepted := r.accepted ++ r.offer.getD [], offer := none }
  | .settles false => { r with refused := r.offer <|> r.refused, offer := none }
  | .ends _ => { r with ended := true }

/-- What a receiver has seen after more happenings. -/
def after (r : Reception) (hs : List Happening) : Reception := hs.foldl next r

/-- What may happen next, when `plain c` is the plaintext of the ciphertext `c`. -/
def Allows (plain : Bytes → Bytes) (r : Reception) : Happening → Prop
  | .offers data =>
    -- one at a time, never after the end, continuing what was accepted; what was refused comes again as it was
    r.ended = false ∧ r.offer = none ∧ data ≠ [] ∧ (∀ x, r.refused = some x → data = x) ∧
      r.accepted ++ data <+: plain r.arrived
  | .ends failed =>
    -- once, and not before everything was accepted
    r.ended = false ∧ r.offer = none ∧
      (failed = false → r.refused = none ∧ r.accepted = plain r.arrived)
  | .arrives _ | .settles _ => True

/-- Each happening is allowed when it happens. -/
def Orderly (plain : Bytes → Bytes) : Reception → List Happening → Prop
  | _, [] => True
  | r, x :: xs => r.Allows plain x ∧ (r.next x).Orderly plain xs

variable {plain : Bytes → Bytes} {r : Reception} {hs hs' : List Happening}

@[simp] theorem after_nil : r.after [] = r := rfl

@[simp] theorem after_append : r.after (hs ++ hs') = (r.after hs).after hs' := List.foldl_append ..

/-- Nothing is accepted but the front of the plaintext. -/
theorem Orderly.within (hgrows : ∀ c x, plain c <+: plain (c ++ x)) (h : Orderly plain r hs)
    (hr : r.accepted ++ r.offer.getD [] <+: plain r.arrived) :
    (r.after hs).accepted ++ (r.after hs).offer.getD [] <+: plain (r.after hs).arrived := by
  induction hs generalizing r with
  | nil => exact hr
  | cons x hs ih =>
    obtain ⟨hx, hs⟩ := h
    refine ih hs ?_
    cases x with
    | arrives data => exact hr.trans (hgrows _ _)
    | offers data => exact hx.2.2.2.2
    | settles taken =>
      cases taken with
      | true => simpa [next] using hr
      | false => exact .trans (by simp [next]) hr
    | ends failed => exact hr

theorem orderly_append : Orderly plain r (hs ++ hs') ↔ Orderly plain r hs ∧ Orderly plain (r.after hs) hs' := by
  induction hs generalizing r with
  | nil => simp [Orderly]
  | cons x hs ih => simp [Orderly, after, ih, and_assoc]

end Reception

/-- What a method tells of the receiver. -/
def Method.happenings : Method → List Happening
  | .op (.lower (.recv data)) => [.arrives data]
  | .settled (.ok ()) => [.settles true]
  | .settled (.error _) => [.settles false]
  | _ => []

namespace Tls

variable {H : Host}

/-- What a request hands up; `failed` says whether the session has. -/
def handsUp (failed : Bool) : Exchange (io H) → Option Happening
  | ⟨.emit (.recv data), _⟩ => some (.offers data)
  | ⟨.emit .eof, _⟩ => some (.ends failed)
  | _ => none

/-- What is handed up in a run. -/
def handed (failed : Bool) (t : Trace H) : List Happening := t.filterMap (handsUp failed)

/-- What happens during a call. -/
def Call.happenings (c : Call H) : List Happening :=
  c.method.happenings ++ handed (c.after.phase = .failed) c.trace

variable {ops : EngineOps H.Engine H.Shared} {good : H.Engine → Prop} {plain : H.Engine → Bytes → Bytes}
  {b me : Handle} {e₀ : H.Engine} {l₀ l l' : Layer H.Source H.Engine} {s s' : Session H.Engine} {d u v : Trace H}
  {r : Reception} {failed : Bool}

/-- How far a session and its receiver agree, when the stream began with the engine `e₀`. -/
structure Session.Follows (good : H.Engine → Prop) (plain : H.Engine → Bytes → Bytes) (e₀ : H.Engine) (r : Reception)
    (s : Session H.Engine) : Prop where
  good : good s.engine
  /-- The plaintext of all that has arrived and will arrive is what was accepted, what is held, and what the engine
  will make of the rest. -/
  stream : ∀ x, plain e₀ (r.arrived ++ x) = r.accepted ++ s.rxApp.toList ++ plain s.engine (s.rx.toList ++ x)
  offer : r.offer = s.inFlight.map fun _ => s.rxApp.toList
  refused : ∀ x, r.refused = some x → s.inFlight = none ∧ x = s.rxApp.toList
  nonempty : s.inFlight.isSome ∨ r.refused.isSome → s.rxApp.toList ≠ []

/-- How far a layer and its receiver agree. -/
structure Tracks (good : H.Engine → Prop) (plain : H.Engine → Bytes → Bytes) (e₀ : H.Engine) (r : Reception)
    (l : Layer H.Source H.Engine) : Prop where
  ended : r.ended = true ↔ l.rxState = .closed
  settled : r.ended = true → r.offer = none
  early : l.phase = .handshaking → r.offer = none
  live : l.phase = .handshaking ∨ l.phase = .established → l.rxState ≠ .closed →
    ∃ s, l.session = some s ∧ s.Follows good plain e₀ r

/-! ## What is handed up -/

@[simp] theorem handed_nil : handed failed ([] : Trace H) = [] := rfl

@[simp] theorem handed_append : handed failed (d ++ u) = handed failed d ++ handed failed u :=
  List.filterMap_append ..

theorem handed_deeds (t : Trace H) : handed failed (deeds t) = handed failed t := by
  refine apply_deeds (handed failed) (fun x t u h => ?_) (fun x t hx => ?_) t
  · unfold handed at h ⊢
    rw [List.filterMap_cons, List.filterMap_cons, h]
  · have hnone : handsUp failed x = none := by
      unfold handsUp
      split
      · cases hx
      · cases hx
      · rfl
    unfold handed
    rw [List.filterMap_cons, hnone]

theorem Acks.handed_eq {n : Nat} (h : Acks b n u) : handed failed u = [] := by
  cases h <;> rfl

theorem Drops.handed_eq (h : Drops b u) : handed failed u = [] := by
  cases h <;> rfl

theorem Relays.handed_eq {ps : List Push} (h : Relays b ps u) : handed failed u = [] := by
  induction h with
  | nil => rfl
  | cons h _ ih =>
    rw [handed_append, ih, List.append_nil]
    cases h <;> rfl

theorem Drives.handed_eq {α : Type} {p : EngineAct H.Shared (H.Engine × α)} {a : α} (h : Drives b s p a u s') :
    handed failed u = [] := by
  obtain ⟨ps, -, hu⟩ := h.works
  exact hu.handed_eq

theorem Opens.handed_eq {a : Except Fault Decrypted} (h : Opens ops b l s a u s') : handed failed u = [] := by
  cases h with
  | intro hp hr hs hf ha n hd => exact hd.handed_eq

theorem Completes.handed_eq {n : Nat} (h : Completes b s n u s') : handed failed u = [] := by
  cases h with
  | partly => rfl
  | fully h0 hu => exact hu.handed_eq

theorem Idle.handed_eq {x : Exchange (io H)} (h : Idle b x) : handed failed [x] = [] := by
  cases h with
  | emit hr he =>
    rename_i e
    cases e with
    | recv data => exact absurd rfl (hr data)
    | eof => exact absurd rfl he
    | _ => rfl
  | _ => rfl

/-! ## Moves -/

theorem Session.Follows.engine {e : H.Engine} {rx : Segments} {n : Nat} {f c : Bool}
    (h : s.Follows good plain e₀ r) (hg : good e)
    (he : ∀ x, plain s.engine (s.rx.toList ++ x) = plain e (rx.toList ++ x)) :
    { s with engine := e, rx := rx, bytesRead := n, applDataSent := f, closeNotifySent := c }.Follows
      good plain e₀ r :=
  ⟨hg, fun x => by rw [h.stream, he], h.offer, h.refused, h.nonempty⟩

theorem Session.Follows.drives {α : Type} {p : EngineAct H.Shared (H.Engine × α)} {a : α}
    (h : s.Follows good plain e₀ r) (hd : Drives b s p a u s') (hg : good s'.engine)
    (he : ∀ x, plain s.engine (s.rx.toList ++ x) = plain s'.engine (s'.rx.toList ++ x)) :
    s'.Follows good plain e₀ r := by
  cases hd with
  | intro => exact h.engine hg he

theorem Completes.follows {n : Nat} (h : Completes b s n u s') (hs : s.Follows good plain e₀ r) :
    s'.Follows good plain e₀ r := by
  cases h with
  | partly => exact hs
  | fully => exact ⟨hs.good, hs.stream, hs.offer, hs.refused, hs.nonempty⟩

/-- The whole stream so far. -/
theorem Session.Follows.whole (h : s.Follows good plain e₀ r) :
    plain e₀ r.arrived = r.accepted ++ s.rxApp.toList ++ plain s.engine s.rx.toList := by
  simpa using h.stream []

/-- When nothing is held, nothing is out and nothing was refused. -/
theorem Opens.follows {a : Except Fault Decrypted} (ho : Opens ops b l s a u s') (ht : Tracks good plain e₀ r l) :
    s.Follows good plain e₀ r ∧ r.ended = false ∧ r.offer = none ∧ r.refused = none ∧ s.rxApp.toList = [] := by
  cases ho with
  | intro hp hr hs hf ha n hd =>
    obtain ⟨s₁, hs₁, hfol⟩ := ht.live (.inr hp) hr
    rw [hs] at hs₁
    cases hs₁
    refine ⟨hfol, ?_, ?_, ?_, ha⟩
    · rw [← Bool.not_eq_true, ht.ended]
      exact hr
    · rw [hfol.offer, hf]
      rfl
    · cases hx : r.refused with
      | none => rfl
      | some x => exact absurd ha (hfol.nonempty (.inr (by rw [hx]; rfl)))

/-- After the end of the stream there is nothing to agree on but that it has come. -/
theorem Tracks.ends (failed : Bool) (ho : r.offer = none) (hr : l'.rxState = .closed) :
    Tracks good plain e₀ (r.next (.ends failed)) l' :=
  ⟨⟨fun _ => hr, fun _ => rfl⟩, fun _ => ho, fun _ => ho, fun _ hn => absurd hr hn⟩

/-- The end of a session whose loss is known to the receiver, or told to it now. -/
theorem Breaks.tracks (hv : Breaks b l.rxState v) (ht : Tracks good plain e₀ r l) (ho : r.offer = none) :
    r.Orderly (plain e₀) (handed true v) ∧ Tracks good plain e₀ (r.after (handed true v)) l.broken := by
  generalize hx : l.rxState = x at hv
  cases hv with
  | told hr hu =>
    have he : r.ended = false := by
      rw [← Bool.not_eq_true, ht.ended, hx]
      exact hr
    rename_i w
    have hh : handed true (⟨.emit .eof, ()⟩ :: w) = [.ends true] := by
      rw [← List.singleton_append, handed_append, hu.handed_eq]
      rfl
    rw [hh]
    exact ⟨⟨⟨he, ho, fun hf => by cases hf⟩, trivial⟩, .ends true ho rfl⟩
  | known hu =>
    rw [hu.handed_eq]
    exact ⟨trivial, ⟨fun _ => rfl, fun _ => ht.ended.2 hx⟩, ht.settled, fun _ => ho,
      fun _ hn => absurd rfl hn⟩

/-- What is handed up by a move is allowed, and layer and receiver go on to agree. -/
theorem Move.tracks (h : Move ops b l d l') (hr : Reads ops good plain)
    (hf : l'.phase = .failed → failed = true) (ht : Tracks good plain e₀ r l) :
    r.Orderly (plain e₀) (handed failed d) ∧ Tracks good plain e₀ (r.after (handed failed d)) l' := by
  cases h with
  | idle hx =>
    rw [hx.handed_eq]
    exact ⟨trivial, ht⟩
  | connecting => exact ⟨trivial, ht.ended, ht.settled, ht.early, ht.live⟩
  | @shaken s s' p u v hp hs hd x hv =>
    have hh : handed failed (u ++ ⟨.ask b .output, x⟩ :: v) = [] := by
      rw [handed_append, hd.handed_eq, List.nil_append, ← List.singleton_append, handed_append, hv.handed_eq]
      rfl
    rw [hh]
    refine ⟨trivial, ht.ended, ht.settled, fun _ => ht.early hp, fun _ hrx => ?_⟩
    obtain ⟨s₁, hs₁, hfol⟩ := ht.live (.inl hp) hrx
    rw [hs] at hs₁
    cases hs₁
    obtain ⟨ps, hw, -⟩ := hd.works
    obtain ⟨hg, he⟩ := hr.handshake hfol.good hw
    have := hfol.drives hd hg he
    exact ⟨_, rfl, this.good, this.stream, this.offer, this.refused, this.nonempty⟩
  | @unshaken s s' f u v w hp hs hd x hv hw =>
    obtain rfl := hf rfl
    have hh : handed true (u ++ ⟨.ask b .output, x⟩ :: v ++ w) = handed true w := by
      rw [handed_append, handed_append, hd.handed_eq, List.nil_append, ← List.singleton_append, handed_append,
        hv.handed_eq]
      rfl
    rw [hh]
    exact hw.tracks ht (ht.early hp)
  | sealed data sent hs =>
    refine ⟨trivial, ht.ended, ht.settled, ht.early, fun hp hrx => ?_⟩
    obtain ⟨s₁, hs₁, hfol⟩ := ht.live hp hrx
    rw [hs] at hs₁
    cases hs₁
    obtain ⟨hg, he⟩ := hr.encrypt hfol.good
    exact ⟨_, rfl, hfol.engine hg fun x => (he _).symm⟩
  | flushed hs hd =>
    rw [hd.handed_eq]
    refine ⟨trivial, ht.ended, ht.settled, ht.early, fun hp hrx => ?_⟩
    obtain ⟨s₁, hs₁, hfol⟩ := ht.live hp hrx
    rw [hs] at hs₁
    cases hs₁
    obtain ⟨ps, hw, -⟩ := hd.works
    obtain ⟨hg, he⟩ := hr.flush hfol.good hw
    exact ⟨_, rfl, hfol.drives hd hg he⟩
  | @offered s hp hrx hs hfl ha =>
    obtain ⟨s₁, hs₁, hfol⟩ := ht.live (.inr hp) hrx
    rw [hs] at hs₁
    cases hs₁
    have he : r.ended = false := by
      rw [← Bool.not_eq_true, ht.ended]
      exact hrx
    have ho : r.offer = none := by
      rw [hfol.offer, hfl]
      rfl
    have hpre : r.accepted ++ s.rxApp.toList <+: plain e₀ r.arrived := ⟨_, hfol.whole.symm⟩
    refine ⟨⟨⟨he, ho, ha, fun x hx => (hfol.refused x hx).2.symm, hpre⟩, trivial⟩, ht.ended, ?_, ?_, ?_⟩
    · intro hn
      rw [show r.ended = true from hn] at he
      cases he
    · intro hn
      rw [show l.phase = .handshaking from hn] at hp
      cases hp
    · intro _ _
      exact ⟨_, rfl, hfol.good, hfol.stream, rfl, fun x hx => (by cases hx), fun _ => ha⟩
  | @opened s s₁ s' text u v ho hv =>
    obtain ⟨hfol, he, hoff, href, ha⟩ := ho.follows ht
    rw [handed_append, ho.handed_eq, hv.handed_eq, List.nil_append, Reception.after_nil]
    refine ⟨trivial, ht.ended, ht.settled, ht.early, fun _ _ => ⟨s', rfl, hv.follows ?_⟩⟩
    cases ho with
    | intro hp hrx hs hfl _ n hd =>
      obtain ⟨ps, hw, -⟩ := hd.works
      obtain ⟨hg, hplain⟩ := hr.data hfol.good hw
      obtain ⟨happ, -, -, hfl'⟩ := hd.frame
      refine ⟨hg, fun x => ?_, ?_, ?_, ?_⟩
      · rw [hfol.stream, hplain, Session.opened, Segments.toList_push, happ, ha]
        simp
      · rw [hoff, Session.opened, hfl', hfl]
        rfl
      · intro x hx
        rw [href] at hx
        cases hx
      · intro hn
        rw [href, Session.opened, hfl', hfl] at hn
        simp at hn
  | stalled ho hq hv =>
    obtain ⟨hfol, he, hoff, href, ha⟩ := ho.follows ht
    rw [handed_append, ho.handed_eq, hv.handed_eq, List.nil_append, Reception.after_nil]
    refine ⟨trivial, ht.ended, ht.settled, ht.early, fun _ _ => ⟨_, rfl, hv.follows ?_⟩⟩
    cases ho with
    | intro hp hrx hs hfl _ n hd =>
      obtain ⟨ps, hw, -⟩ := hd.works
      obtain ⟨hg, -, hplain⟩ := hr.wouldBlock hfol.good hw
      exact hfol.drives hd hg hplain
  | drained ho hq hv =>
    obtain ⟨hfol, he, hoff, href, ha⟩ := ho.follows ht
    rw [handed_append, handed_append, ho.handed_eq, hv.handed_eq]
    refine ⟨⟨⟨he, hoff, fun _ => ⟨href, ?_⟩⟩, trivial⟩, .ends failed hoff rfl⟩
    cases ho with
    | intro hp hrx hs hfl _ n hd =>
      obtain ⟨ps, hw, -⟩ := hd.works
      obtain ⟨-, hplain, -⟩ := hr.wouldBlock hfol.good hw
      rw [hfol.whole, ha, hplain]
      simp
  | finished ho hv =>
    obtain ⟨hfol, he, hoff, href, ha⟩ := ho.follows ht
    rw [handed_append, handed_append, ho.handed_eq, hv.handed_eq]
    refine ⟨⟨⟨he, hoff, fun _ => ⟨href, ?_⟩⟩, trivial⟩, .ends failed hoff rfl⟩
    cases ho with
    | intro hp hrx hs hfl _ n hd =>
      obtain ⟨ps, hw, -⟩ := hd.works
      have hplain := hr.peerClosed hfol.good hw []
      rw [List.append_nil] at hplain
      rw [hfol.whole, ha, hplain]
      simp
  | unopened ho hv =>
    obtain rfl := hf rfl
    obtain ⟨-, -, hoff, -⟩ := ho.follows ht
    rw [handed_append, ho.handed_eq]
    exact hv.tracks ht hoff

theorem Move.stays_failed (h : Move ops b l d l') (hl : l.phase = .failed) : l'.phase = .failed := by
  cases h with
  | shaken hp | unshaken hp => rw [hl] at hp; cases hp
  | unopened => rfl
  | _ => exact hl

theorem Moves.stays_failed (h : Moves ops b l d l') (hl : l.phase = .failed) : l'.phase = .failed := by
  induction h with
  | refl => exact hl
  | step h _ ih => exact ih (h.stays_failed hl)

theorem Moves.tracks (h : Moves ops b l d l') (hr : Reads ops good plain) (hf : l'.phase = .failed → failed = true)
    (ht : Tracks good plain e₀ r l) :
    r.Orderly (plain e₀) (handed failed d) ∧ Tracks good plain e₀ (r.after (handed failed d)) l' := by
  induction h generalizing r with
  | refl => exact ⟨trivial, ht⟩
  | step h hs ih =>
    obtain ⟨ho₁, ht₁⟩ := h.tracks hr (fun hp => hf (hs.stays_failed hp)) ht
    obtain ⟨ho₂, ht₂⟩ := ih hf ht₁
    rw [handed_append, Reception.orderly_append, Reception.after_append]
    exact ⟨⟨ho₁, ho₂⟩, ht₂⟩

/-- Without a session nothing is handed up. -/
theorem Move.handed_of_none (h : Move ops b l d l') (hl : l.session = none) : handed failed d = [] := by
  cases h with
  | idle hx => exact hx.handed_eq
  | connecting => rfl
  | shaken hp hs | unshaken hp hs => rw [hl] at hs; cases hs
  | sealed data sent hs => rfl
  | flushed hs => rw [hl] at hs; cases hs
  | offered hp hr hs => rw [hl] at hs; cases hs
  | opened ho | stalled ho | drained ho | finished ho | unopened ho =>
    cases ho with
    | intro hp hr hs => rw [hl] at hs; cases hs

theorem Moves.handed_of_none (h : Moves ops b l d l') (hl : l.session = none) : handed failed d = [] := by
  induction h with
  | refl => rfl
  | step h hs ih => rw [handed_append, h.handed_of_none hl, ih (h.session_none hl), List.nil_append]

theorem happenings_of_isQuiet {m : Method} (hm : m.isQuiet) : m.happenings = [] := by
  unfold Method.happenings
  split
  · cases hm
  · cases hm
  · cases hm
  · rfl

theorem arrived_of_isQuiet {m : Method} (hm : m.isQuiet) : m.arrived = [] := by
  unfold Method.arrived
  split
  · cases hm
  · rfl

/-- A method tells the receiver's verdict, or nothing of the receiver. -/
theorem Enter.tracks {m : Method} (h : Enter b m l d l') (hl : l.Sound)
    (ht : Tracks good plain e₀ r l) :
    handed failed d = [] ∧
      (l'.session = none ∧ frees d = true ∨ Tracks good plain e₀ (r.after m.happenings) l') := by
  cases h with
  | quiet hm =>
    rw [happenings_of_isQuiet hm]
    exact ⟨rfl, .inr ht⟩
  | @arrived _ s data hs hrx =>
    refine ⟨rfl, .inr ⟨ht.ended, ht.settled, ht.early, fun hp _ => ?_⟩⟩
    obtain ⟨s₁, hs₁, hfol⟩ := ht.live hp hrx
    rw [hs] at hs₁
    cases hs₁
    refine ⟨_, rfl, hfol.good, fun x => ?_, hfol.offer, hfol.refused, hfol.nonempty⟩
    have := hfol.stream (data ++ x)
    simpa [Reception.after, Reception.next, Method.happenings] using this
  | dropped hn hu =>
    refine ⟨hu.handed_eq, .inr ⟨ht.ended, ht.settled, ht.early, fun hp hrx => ?_⟩⟩
    obtain ⟨s₁, hs₁, -⟩ := ht.live hp hrx
    rcases hn with hn | hn
    · rw [hs₁] at hn
      cases hn
    · exact absurd hn hrx
  | finished hp hrx =>
    refine ⟨rfl, .inr ⟨?_, ht.settled, ht.early, fun hp _ => ht.live hp (by rw [hrx]; simp)⟩⟩
    have := ht.ended
    rw [hrx] at this
    simpa [Method.happenings] using this
  | unfinished => exact ⟨rfl, .inr ht⟩
  | cut hp hu =>
    refine ⟨?_, .inl ⟨rfl, by simp [frees]⟩⟩
    rw [handed_append, hu.handed_eq]
    rfl
  | lost => exact ⟨rfl, .inl ⟨rfl, rfl⟩⟩
  | @taken _ s n hs hfl =>
    refine ⟨rfl, .inr ⟨ht.ended, fun _ => rfl, fun _ => rfl, fun hp hrx => ?_⟩⟩
    obtain ⟨s₁, hs₁, hfol⟩ := ht.live hp hrx
    rw [hs] at hs₁
    cases hs₁
    have hempty : (s.rxApp.advance n).toList = [] := by
      rw [Segments.toList_advance (hl s hs).rxApp, (hl s hs).inFlight n hfl, (hl s hs).rxApp.size_eq,
        List.drop_length]
    have hoff : r.offer = some s.rxApp.toList := by rw [hfol.offer, hfl]; rfl
    have href : r.refused = none := by
      cases hx : r.refused with
      | none => rfl
      | some x =>
        have := (hfol.refused x hx).1
        rw [hfl] at this
        cases this
    refine ⟨_, rfl, hfol.good, fun x => ?_, rfl, fun x hx => ?_, fun hn => ?_⟩
    · have := hfol.stream x
      simpa [Reception.after, Reception.next, Method.happenings, hoff, hempty] using this
    · rw [show (r.after (Method.happenings (.settled (.ok ())))).refused = r.refused from rfl, href] at hx
      cases hx
    · rw [show (r.after (Method.happenings (.settled (.ok ())))).refused = r.refused from rfl, href] at hn
      simp at hn
  | @refused _ s n f hs hfl =>
    refine ⟨rfl, .inr ⟨ht.ended, fun _ => rfl, fun _ => rfl, fun hp hrx => ?_⟩⟩
    obtain ⟨s₁, hs₁, hfol⟩ := ht.live hp hrx
    rw [hs] at hs₁
    cases hs₁
    have hoff : r.offer = some s.rxApp.toList := by rw [hfol.offer, hfl]; rfl
    refine ⟨_, rfl, hfol.good, hfol.stream, rfl, fun x hx => ⟨rfl, ?_⟩, fun _ => hfol.nonempty (.inl (by rw [hfl]; rfl))⟩
    have : some x = some s.rxApp.toList := by rw [← hx, ← hoff]; simp [Reception.after, Reception.next, Method.happenings, hoff]
    exact Option.some.inj this
  | @unasked _ v hn =>
    refine ⟨rfl, .inr ⟨by cases v <;> exact ht.ended, ?_, ?_, fun hp hrx => ?_⟩⟩
    · intro _
      cases v <;> rfl
    · intro _
      cases v <;> rfl
    · obtain ⟨s, hs, hfol⟩ := ht.live hp hrx
      have hoff : r.offer = none := by rw [hfol.offer, hn s hs]; rfl
      have heq : r.after (Method.happenings (.settled v)) = r := by
        cases r
        cases v <;> simp_all [Reception.after, Reception.next, Method.happenings]
      rw [heq]
      exact ⟨s, hs, hfol⟩
  | recved hp hs hu =>
    refine ⟨hu.handed_eq, .inr ⟨ht.ended, ht.settled, ht.early, fun hp hrx => ?_⟩⟩
    obtain ⟨s₁, hs₁, hfol⟩ := ht.live hp hrx
    rw [hs] at hs₁
    cases hs₁
    exact ⟨_, rfl, hfol.good, hfol.stream, hfol.offer, hfol.refused, hfol.nonempty⟩
  | unrecved => exact ⟨rfl, .inr ht⟩

theorem frees_deeds (t : Trace H) : frees (deeds t) = frees t := by
  unfold frees deeds
  rw [List.any_filter]
  congr 1
  funext x
  obtain ⟨q, y⟩ := x
  cases q <;> rfl

@[simp] theorem frees_append : frees (d ++ u) = (frees d || frees u) := List.any_append ..

/-- Every turn is orderly, and as long as the layer does not ask to be freed, it goes on to agree with its receiver. -/
theorem Turns.tracks {m : Method} {f : Bool} (h : Turns ops b m l d l') (hr : Reads ops good plain) (hl : l.Sound)
    (hf : l'.phase = .failed → f = true) (ht : Tracks good plain e₀ r l) :
    r.Orderly (plain e₀) (m.happenings ++ handed f d) ∧
      (frees d = false → Tracks good plain e₀ (r.after (m.happenings ++ handed f d)) l') := by
  have hm : r.Orderly (plain e₀) m.happenings := by
    unfold Method.happenings
    split <;> simp [Reception.Orderly, Reception.Allows]
  rw [Reception.orderly_append, Reception.after_append]
  cases h with
  | @moved _ _ l₁ _ d₁ d₂ he hmv =>
    obtain ⟨h₁, hs⟩ := he.tracks hl ht
    rw [handed_append, h₁, List.nil_append]
    rcases hs with ⟨hnone, hfree⟩ | ht₁
    · rw [hmv.handed_of_none hnone, frees_append, hfree]
      exact ⟨⟨hm, trivial⟩, fun hn => by cases hn⟩
    · obtain ⟨ho, ht'⟩ := hmv.tracks hr hf ht₁
      exact ⟨⟨hm, ho⟩, fun _ => ht'⟩
  | drawn hs x c =>
    refine ⟨⟨hm, trivial⟩, fun _ => ⟨ht.ended, ht.settled, ht.early, fun hp hrx => ?_⟩⟩
    obtain ⟨s, hs', -⟩ := ht.live hp hrx
    rw [hs] at hs'
    cases hs'
  | listened =>
    refine ⟨⟨hm, trivial⟩, fun _ => ⟨ht.ended, ht.settled, fun hp => (by cases hp), fun hp => ?_⟩⟩
    rcases hp with hp | hp <;> cases hp

/-- A layer at its beginning, with the engine `e`. -/
structure Begins (l : Layer H.Source H.Engine) (e : H.Engine) : Prop where
  session : l.session = some (.ofEngine e)
  phase : l.phase = .handshaking
  opened : l.rxState = .opened

theorem Begins.tracks (h : Begins l e₀) (hg : good e₀) : Tracks good plain e₀ {} l := by
  refine ⟨?_, fun _ => rfl, fun _ => rfl, fun _ _ => ?_⟩
  · rw [h.opened]
    simp
  · exact ⟨_, h.session, hg, fun x => rfl, rfl, fun x hx => (by cases hx), fun hn => (by simp [Session.ofEngine] at hn)⟩

/-- **At every moment of a life, only what is allowed happens.** Over any connection, with any answers, in any order of
calls that do not end the connection: what the receiver has accepted is the front of the plaintext of what has arrived,
and what is handed up next continues it, or comes again after a refusal, or is the end of the stream, once and last. -/
theorem Life.in_order {h : List (Call H)} (hl : Life ops b me l₀ h l) (hr : Reads ops good plain)
    (h₀ : Begins l₀ e₀) (hg : good e₀) (hm : ∀ c ∈ h, c.method.leaves = false) {past future : List Happening}
    (hpast : h.flatMap Call.happenings = past ++ future) :
    (Reception.after {} past).accepted <+: plain e₀ (Reception.after {} past).arrived ∧
      ∀ x rest, future = x :: rest → (Reception.after {} past).Allows (plain e₀) x := by
  have hs₀ : l₀.Sound := by
    intro s hs
    rw [h₀.session] at hs
    cases hs
    exact .ofEngine _
  obtain ⟨⟨horder, -⟩, -⟩ := hl.keeps (Q := fun _ => True)
    (P := fun h l => Reception.Orderly (plain e₀) {} (h.flatMap Call.happenings) ∧
      ((∀ c ∈ h, frees c.trace = false) → Tracks good plain e₀ (Reception.after {} (h.flatMap Call.happenings)) l))
    ⟨trivial, fun _ => h₀.tracks hg⟩ hs₀ hm (fun _ _ => trivial) fun h c ⟨ho, ht⟩ hs _ hturn hfree => by
      obtain ⟨ho', ht'⟩ := hturn.tracks hr hs (f := c.after.phase = .failed) (by simp) (ht hfree)
      rw [handed_deeds, ← Call.happenings] at ho' ht'
      rw [List.flatMap_append, List.flatMap_singleton, Reception.orderly_append, Reception.after_append]
      exact ⟨⟨ho, ho'⟩, fun hn => ht' (by rw [frees_deeds]; exact hn c (by simp))⟩
  rw [hpast, Reception.orderly_append] at horder
  obtain ⟨hbefore, hnext⟩ := horder
  refine ⟨(List.prefix_append _ _).trans (hbefore.within (hr.grows e₀) (List.nil_prefix ..)), ?_⟩
  rintro x rest rfl
  exact hnext.1

/-- All that a client sees before its peer takes leave. -/
def Toy.greetings : List Happening :=
  [.arrives (letters 's' 1), .arrives (record 0x17 ([104, 105] ++ List.replicate 8 0xAA)), .offers [104, 105],
    .settles false, .offers [104, 105], .settles true, .arrives (record 0x15 [1, 0])]

/-- A client has accepted everything when the end of the stream is handed up. -/
theorem Life.in_order_farewell :
    ((Toy.calls Toy.farewell).flatMap Call.happenings = Toy.greetings ++ [.ends false]) ∧
      (Reception.after {} Toy.greetings).Allows (Toy.reading Toy.young) (.ends false) := by
  have hlife := Toy.life Toy.farewell (by decide +kernel)
  have hleaves : ∀ c ∈ Toy.calls Toy.farewell, c.method.leaves = false := by decide +kernel
  have happened : (Toy.calls Toy.farewell).flatMap Call.happenings = Toy.greetings ++ [.ends false] := by
    decide +kernel
  exact ⟨happened, (Life.in_order hlife Toy.reads ⟨rfl, rfl, rfl⟩ trivial hleaves happened).2 _ _ rfl⟩

end Tls

end Conduit
