import Conduit.Proofs.Layer.Inward
import Conduit.Proofs.Layer.Sends
import Conduit.Proofs.Tls.Shapes

/-!
# How a session is lost

When its engine reports a failure, a TLS layer tells the end of the stream, asks the connection below to close, and aborts
it if that refuses. It asks nothing more of it, and tells nothing else but that it was polled.

* `Footing`: how a layer stands on the connection below.
* `Program.Founders`: a program over a connection that it may let go. Its equations take a program apart.
* `Tls.Layer.Lost`: how a method ends that may lose the session.
* `Secure.step_founders`: **every method ends so**, or cannot lose it.
-/

namespace Conduit

open Layer

variable {H : Host} {σ α β : Type}

/-- The operations by which data moves: it goes out, or is acknowledged. -/
def Op.carries : Op → Bool
  | .recved _ => true
  | o => o.sends

/-- The requests of a layer that concern no connection. -/
def Layer.Req.isAside : Layer.Req H → Bool
  | .pollInterval | .note _ | .pcb _ _ | .newEngine _ _ | .shared | .setShared _ => true
  | _ => false

/-- How a layer stands on the connection below. -/
inductive Footing
  | stands
  /-- The connection has refused to close. -/
  | rebuffed (f : Fault)
  /-- The connection has answered so when it was asked to close, and is gone; these events were told before. -/
  | fallen (x : Outcome) (before : List Event)

namespace Footing

/-- What is below a layer that stands so on the connection `y`. -/
def below (y : Handle) : Footing → Option Handle
  | .fallen .. => none
  | _ => some y

/-- The connection below has not refused to close. -/
def Sure (g : Footing) : Prop := ∀ f, g ≠ .rebuffed f

theorem sure_fallen {x : Outcome} {before : List Event} : (Footing.fallen x before).Sure := nofun

end Footing

namespace Program

/-- A program over the connection `y` that may let it go, and ends as `post` says of its result, of how it stands, and of
the events that were told since it stands so. -/
def Founders (y : Handle) (post : α → Footing → List Event → Prop) :
    Program (Layer.io H) α → Footing → List Event → Prop
  | .done a, g, out => post a g out
  | .ask r next, g, out =>
    match r, next with
    | .emit e, next => e.isError = false ∧ (next ()).Founders y post g (out ++ [e])
    | .note _, next => (next ()).Founders y post g out
    | .setShared _, next => (next ()).Founders y post g out
    | .shared, next => ∀ x, (next x).Founders y post g out
    | .pollInterval, next => ∀ x, (next x).Founders y post g out
    | .pcb _ _, next => ∀ x, (next x).Founders y post g out
    | .newEngine _ _, next => ∀ x, (next x).Founders y post g out
    | .inner, next => (next (g.below y)).Founders y post g out
    | .ask i .close, next => i = y ∧ g = .stands ∧ (next (.ok ())).Founders y post (.fallen (.ok ()) out) [] ∧
        ∀ f, (next (.error f)).Founders y post (.rebuffed f) out
    | .ask i .abort, next => i = y ∧ ∃ f, g = .rebuffed f ∧ (next ()).Founders y post (.fallen (.error f) out) []
    | .ask i o, next => i = y ∧ o.carries = true ∧ g = .stands ∧ ∀ x, (next x).Founders y post g out
    | .release, _ | .fail _, _ | .cover _ _, _ => False

variable {y : Handle} {post : β → Footing → List Event → Prop} {g : Footing} {out : List Event}

theorem founders_bind (p : Program (Layer.io H) α) (f : α → Program (Layer.io H) β) :
    (p >>= f).Founders y post g out ↔ p.Founders y (fun a g out => (f a).Founders y post g out) g out := by
  induction p generalizing g out with
  | done a => exact Iff.rfl
  | ask r next ih =>
    cases r with
    | emit => exact and_congr_right fun _ => ih ()
    | note | setShared => exact ih ()
    | shared | pollInterval | pcb | newEngine => exact forall_congr' fun x => ih x
    | inner => exact ih _
    | release | fail | cover => exact Iff.rfl
    | ask i o =>
      cases o with
      | close =>
        exact and_congr_right fun _ => and_congr_right fun _ => and_congr (ih _) (forall_congr' fun f => ih _)
      | abort => exact and_congr_right fun _ => exists_congr fun f => and_congr_right fun _ => ih ()
      | _ => exact and_congr_right fun _ => and_congr_right fun _ => and_congr_right fun _ => forall_congr' fun x => ih x

/-- Requests that concern no connection change nothing. -/
theorem Founders.aside {r : Layer.Req H} {next : r.Ans → Program (Layer.io H) β}
    (h : (Program.ask r next).Founders y post g out) (hr : r.isAside = true) (x : r.Ans) :
    (next x).Founders y post g out := by
  cases r with
  | note | setShared => exact h
  | shared | pollInterval | pcb | newEngine => exact h x
  | _ => cases hr

end Program

namespace Layer.Act

variable {y : Handle} {s : σ} {g : Footing} {out : List Event} {post post' : α → σ → Footing → List Event → Prop}

/-- A layer in the state `s` works over the connection `y`, which it may let go, and ends as `post` says of the result, of
the state that it leaves, of how it stands, and of the events that were told since it stands so. -/
def Founders (y : Handle) (m : Act H σ α) (s : σ) (g : Footing) (out : List Event)
    (post : α → σ → Footing → List Event → Prop) : Prop :=
  Program.Founders y (fun a => post a.1 a.2) (m s) g out

@[simp] theorem founders_pure (a : α) : Founders y (pure a : Act H σ α) s g out post ↔ post a s g out := Iff.rfl

@[simp] theorem founders_bind (m : Act H σ α) (f : α → Act H σ β) {post : β → σ → Footing → List Event → Prop} :
    Founders y (m >>= f) s g out post ↔ Founders y m s g out fun a s g out => Founders y (f a) s g out post :=
  Program.founders_bind (m s) fun a => f a.1 a.2

@[simp] theorem founders_get {post : σ → σ → Footing → List Event → Prop} :
    Founders y (get : Act H σ σ) s g out post ↔ post s s g out := Iff.rfl

@[simp] theorem founders_set (s' : σ) {post : PUnit → σ → Footing → List Event → Prop} :
    Founders y (set s' : Act H σ PUnit) s g out post ↔ post ⟨⟩ s' g out := Iff.rfl

@[simp] theorem founders_modify (f : σ → σ) {post : PUnit → σ → Footing → List Event → Prop} :
    Founders y (modify f : Act H σ PUnit) s g out post ↔ post ⟨⟩ (f s) g out := Iff.rfl

@[simp] theorem founders_note (n : Note) {post : Unit → σ → Footing → List Event → Prop} :
    Founders y (note n : Act H σ Unit) s g out post ↔ post () s g out := Iff.rfl

@[simp] theorem founders_emit (e : Event) {post : Unit → σ → Footing → List Event → Prop} :
    Founders y (emit e : Act H σ Unit) s g out post ↔ e.isError = false ∧ post () s g (out ++ [e]) := Iff.rfl

@[simp] theorem founders_inner {post : Option Handle → σ → Footing → List Event → Prop} :
    Founders y (inner : Act H σ (Option Handle)) s .stands out post ↔ post (some y) s .stands out := Iff.rfl

@[simp] theorem founders_inner_fallen {x : Outcome} {before : List Event}
    {post : Option Handle → σ → Footing → List Event → Prop} :
    Founders y (inner : Act H σ (Option Handle)) s (.fallen x before) out post ↔ post none s (.fallen x before) out := Iff.rfl

theorem founders_ask {o : Op} (ho : o.carries = true) {post : o.Reply → σ → Footing → List Event → Prop}
    (h : ∀ x, post x s .stands out) : Founders (α := no_index o.Reply) y (ask y o : Act H σ o.Reply) s .stands out post := by
  cases o with
  | recved | write | output | sndbuf => exact ⟨rfl, rfl, rfl, h⟩
  | _ => cases ho

end Layer.Act

/-! ## The parts of the methods -/

namespace Tls

open Layer.Act

variable {y : Handle} {g : Footing} {out : List Event} {f : Feed}

theorem founders_push (hg : g.Sure) (d : Bytes) {post : Except Fault Nat → Feed → Footing → List Event → Prop}
    (h : ∀ x, post x f g out) : Founders (H := H) y (Feed.push d) f g out post := by
  unfold Feed.push
  cases g with
  | rebuffed f => exact absurd rfl (hg f)
  | fallen x before => exact h _
  | stands =>
    simp only [founders_bind, founders_inner]
    refine founders_ask rfl fun room => ?_
    split
    · exact h _
    · simp only [founders_bind]
      refine founders_ask rfl fun x => ?_
      split
      · exact h _
      · exact h _
      · exact h _

/-- An engine at work leaves the layer where it stands, and all but the session as it is. -/
theorem founders_drive (hg : g.Sure) {l : σ} {s : Session H.Engine} {p : EngineAct H.Shared (H.Engine × α)}
    {post : Session H.Engine × α → σ → Footing → List Event → Prop} (h : ∀ a s', post (s', a) l g out) :
    Founders y (s.drive p) l g out post := by
  have hrun : ∀ (p : EngineAct H.Shared (H.Engine × α)) (f : Feed) {post : H.Engine × α → Feed → Footing → List Event → Prop},
      (∀ a f', post a f' g out) → Founders y (p.run Feed.answer) f g out post := by
    intro p f post hpost
    induction p generalizing f with
    | done a => exact hpost a f
    | ask r next ih =>
      rw [Program.run_ask, founders_bind]
      cases r with
      | available | peek | pull => exact ih _ _
      | push d => exact founders_push hg d fun x => ih x f
      | note | setShared => exact ih _ f
      | shared => exact fun _ => ih _ f
  refine (Program.founders_bind _ _).2 ?_
  exact hrun p ⟨s.rx, s.bytesRead⟩ fun r f' => h r.2 { s with engine := r.1, rx := f'.rx, bytesRead := f'.taken }

/-- What a layer tells when its session fails, perhaps when the handshake was just done. -/
def Layer.lastWords {S E : Type} (l : Layer S E) (shaken : Bool) : List Event :=
  (if shaken && l.connecting then [.connected (.ok ())] else []) ++ if l.rxState = .closed then [] else [.eof]

/-- How a method ends that began with the layer `l` and may lose the session: the session is not lost; or it is, and the
connection below is gone. Then the last words were told before that, and `echo` after. -/
def Layer.Lost {S E : Type} (l : Layer S E) (echo : List Event) (l' : Layer S E) (g : Footing) (out : List Event) : Prop :=
  match g with
  | .stands => l'.phase ≠ .failed
  | .rebuffed _ => False
  | .fallen _ before =>
    l' = l.broken ∧ out = echo ∧ ∃ shaken : Bool, (shaken = true → l.phase = .handshaking) ∧ before = l.lastWords shaken

end Tls

namespace Secure

open Layer.Act Tls Footing

variable {ops : EngineOps H.Engine H.Shared} {me y : Handle} {l : Tls.Layer H.Source H.Engine} {s : Session H.Engine}
  {g : Footing} {out echo : List Event}

section Parts

variable {post : Unit → Tls.Layer H.Source H.Engine → Footing → List Event → Prop}

theorem ackLower_founders (hg : g.Sure) {n : Nat} (h : post () l g out) : Founders y (ackLower n) l g out post := by
  unfold ackLower
  split
  · exact h
  · cases g with
    | rebuffed f => exact absurd rfl (hg f)
    | fallen x before => exact h
    | stands =>
      simp only [founders_bind, founders_inner]
      exact founders_ask rfl fun _ => h

theorem outputLower_founders (hg : g.Sure) (h : post () l g out) : Founders y (outputLower me) l g out post := by
  unfold outputLower
  cases g with
  | rebuffed f => exact absurd rfl (hg f)
  | fallen x before => exact h
  | stands =>
    simp only [founders_bind, founders_inner]
    refine founders_ask rfl fun x => ?_
    cases x with
    | ok _ => exact h
    | error f => exact h

/-- An acknowledgement is handed on. -/
theorem recved_founders {n : Nat} (hg : g.Sure) (h : post () l g out) (h' : ∀ s, post () { l with session := some s } g out) :
    Founders y (recved me n) l g out post := by
  unfold recved
  simp only [founders_bind, founders_get]
  split
  · split
    · simp only [setSession, founders_bind, founders_note, founders_modify]
      exact ackLower_founders hg (h' _)
    · simp only [setSession, founders_bind, founders_modify]
      exact ackLower_founders hg (h' _)
  · exact h

end Parts

theorem flush_founders (hg : g.Sure) {post : Except Fault Bool → Tls.Layer H.Source H.Engine → Footing → List Event → Prop}
    (h₀ : l.session = none → post (.ok true) l g out)
    (h : ∀ r s', post r { l with session := some s' } g out) : Founders y (flush ops me) l g out post := by
  unfold flush
  simp only [founders_bind, founders_get]
  split
  · rename_i hs
    exact h₀ hs
  · rw [founders_bind]
    refine founders_drive hg fun r s' => ?_
    simp only [setSession, founders_bind, founders_modify]
    cases r with
    | error f => exact h _ s'
    | ok b =>
      simp only [founders_bind]
      exact outputLower_founders hg (h _ s')

theorem flushOn_founders (hg : g.Sure) {what : String}
    {post : Unit → Tls.Layer H.Source H.Engine → Footing → List Event → Prop}
    (h₀ : l.session = none → post () l g out) (h : ∀ s', post () { l with session := some s' } g out) :
    Founders y (flushOn ops me what) l g out post := by
  unfold flushOn
  rw [founders_bind]
  refine flush_founders hg (fun hs => h₀ hs) fun r s' => ?_
  cases r with
  | ok b => exact h s'
  | error f => exact h s'

/-! ## Methods that may lose the session -/

section

variable {post : Unit → Tls.Layer H.Source H.Engine → Footing → List Event → Prop}

end

/-! ## Whole methods -/

end Secure

/-- The methods by which a layer in a phase runs its engine for what has come in. -/
def Method.opens (p : Tls.Phase) : Method → Bool
  | .op (.lower (.connected (.ok _))) | .op (.lower (.recv _)) | .op (.lower .poll) | .settled _ => true
  | .op (.lower .eof) => p ≠ .handshaking
  | _ => false

/-- What a method tells in any case, and as the last. -/
def Method.echo : Method → List Event
  | .op (.lower .poll) => [.poll]
  | _ => []

namespace Secure

open Layer.Act Tls Footing

variable {ops : EngineOps H.Engine H.Shared} {me y : Handle} {l : Tls.Layer H.Source H.Engine}

end Secure

/-- The methods by which a connection goes that has nothing below. -/
def Method.quits : Method → Bool
  | .op .close | .op (.shutdown .both) | .op (.lower (.error _)) => true
  | _ => false

/-- The session has failed, and the receiver has been told the end of the stream. -/
structure Tls.Layer.Lapsed {S E : Type} (l : Tls.Layer S E) : Prop where
  phase : l.phase = .failed
  rxState : l.rxState = .closed

namespace Secure

open Layer.Act Tls Footing

variable {ops : EngineOps H.Engine H.Shared} {me y : Handle} {l : Tls.Layer H.Source H.Engine} {x : Outcome}
  {before : List Event}

/-- Nothing is opened any more. -/
theorem deliver_lapsed {g : Footing} {out : List Event}
    {post : Unit → Tls.Layer H.Source H.Engine → Footing → List Event → Prop} (hl : l.Lapsed) (h : post () l g out) :
    Founders y (deliver ops me) l g out post := by
  unfold deliver
  simp only [founders_bind, founders_get, hl.phase]
  exact h

/-- **A layer whose session has failed stays as it is**, with nothing below, and tells nothing of itself, until it is
closed or handed the last event of what was below. -/
theorem step_lapsed {m : Method} (hl : l.Lapsed) (hm : m.quits = false) :
    Founders y (step ops me m) l (.fallen x before) [] fun _ l' _ out => l'.Lapsed ∧ (m.isLower = false → out = []) := by
  obtain ⟨hp, hr⟩ := hl
  have hkept : ∀ {l' : Tls.Layer H.Source H.Engine}, l'.phase = l.phase → l'.rxState = l.rxState →
      l'.Lapsed ∧ (m.isLower = false → ([] : List Event) = []) := fun hp' hr' => ⟨⟨hp'.trans hp, hr'.trans hr⟩, fun _ => rfl⟩
  -- the engine may have been started again, and is run for what it has to send
  have hflush : ∀ {post : Except Fault Bool → Tls.Layer H.Source H.Engine → Footing → List Event → Prop},
      (∀ r l', l'.Lapsed → post r l' (.fallen x before) []) → Founders y (flush ops me) l (.fallen x before) [] post :=
    fun h => flush_founders sure_fallen (fun _ => h _ l ⟨hp, hr⟩) fun r s' => h r _ ⟨hp, hr⟩
  cases m with
  | dealloc =>
    show Founders y (do
      if (← get).session.isSome then
        modify fun l => { l with session := none }
        note (.trace "tls session state dropped" [me.field])) l (.fallen x before) [] _
    simp only [founders_bind, founders_get]
    split
    · exact hkept rfl rfl
    · exact hkept rfl rfl
  | settled v =>
    show Founders y (settle ops me v) l (.fallen x before) [] _
    unfold settle
    simp only [founders_bind, founders_get]
    split
    · exact hkept rfl rfl
    · split
      · exact hkept rfl rfl
      · cases v with
        | ok _ =>
          simp only [setSession, founders_bind, founders_modify]
          exact deliver_lapsed ⟨hp, hr⟩ (hkept rfl rfl)
        | error f => exact hkept rfl rfl
  | op o =>
    cases o with
    | lower e =>
      show Founders y (lower ops me e) l (.fallen x before) [] _
      have htold : ∀ {l' : Tls.Layer H.Source H.Engine} {out : List Event}, l'.Lapsed →
          l'.Lapsed ∧ ((Method.op (.lower e)).isLower = false → out = []) :=
        fun h => ⟨h, fun hlow => Bool.noConfusion hlow⟩
      unfold lower
      cases e with
      | accept new =>
        simp only [founders_bind, founders_get, hp]
        exact htold ⟨hp, hr⟩
      | connected r =>
        cases r with
        | ok _ =>
          unfold receive
          simp only [founders_bind, founders_note, founders_get, hp]
          exact deliver_lapsed ⟨hp, hr⟩ (htold ⟨hp, hr⟩)
        | error f =>
          simp only [founders_bind, founders_modify, founders_emit]
          exact ⟨rfl, htold ⟨hp, hr⟩⟩
      | recv data =>
        have hdrop : Founders y (do dropData me data.length; pure (.ok ()) : Act H Outcome) l (.fallen x before) []
            fun _ l' _ out => l'.Lapsed ∧ ((Method.op (.lower (.recv data))).isLower = false → out = []) := by
          unfold dropData
          simp only [founders_bind, founders_note]
          exact ackLower_founders sure_fallen (htold ⟨hp, hr⟩)
        unfold lowerData
        rw [founders_bind]
        simp only [founders_bind, founders_get, hr]
        rw [founders_bind] at hdrop
        split
        · exact hdrop
        · exact hdrop
      | eof =>
        unfold lowerEof
        simp only [founders_bind, founders_get, hp]
        exact htold ⟨hp, hr⟩
      | sent n =>
        simp only [founders_bind, founders_note]
        have hend : ∀ l' : Tls.Layer H.Source H.Engine, l'.Lapsed → Founders y (do
            if ((← get).session.map (·.applDataSent)).getD false then emit (.sent 0)
            pure (.ok ()) : Act H Outcome) l' (.fallen x before) [] fun _ l' _ out =>
              l'.Lapsed ∧ ((Method.op (.lower (.sent n))).isLower = false → out = []) := by
          intro l' hl'
          simp only [founders_bind, founders_get]
          split
          · exact ⟨rfl, htold hl'⟩
          · exact htold hl'
        simp only [founders_bind] at hend
        exact flushOn_founders sure_fallen (fun _ => hend l ⟨hp, hr⟩) fun s' => hend _ ⟨hp, hr⟩
      | poll =>
        simp only [founders_bind]
        have hend : ∀ l' : Tls.Layer H.Source H.Engine, l'.Lapsed → Founders y (deliver ops me) l' (.fallen x before) []
            fun _ l' g out => Founders y (do emit .poll; pure (.ok ()) : Act H Outcome) l' g out fun _ l' _ out =>
              l'.Lapsed ∧ ((Method.op (.lower .poll)).isLower = false → out = []) :=
          fun l' hl' => deliver_lapsed hl' ⟨rfl, htold hl'⟩
        exact flushOn_founders sure_fallen (fun _ => hend l ⟨hp, hr⟩) fun s' => hend _ ⟨hp, hr⟩
      | error f => cases hm
    | recved n => exact recved_founders sure_fallen (hkept rfl rfl) fun _ => hkept rfl rfl
    | write data flags =>
      show Founders y (write ops me data) l (.fallen x before) [] _
      unfold write
      simp only [founders_bind, founders_get, hp]
      exact hkept rfl rfl
    | output =>
      refine (founders_bind _ _).2 (hflush fun r l' hl' => ?_)
      exact ⟨hl', fun _ => rfl⟩
    | connect a =>
      show Founders y (connect a) l (.fallen x before) [] _
      unfold connect
      simp only [founders_bind, founders_get]
      split
      · exact hkept rfl rfl
      · split
        · exact hkept rfl rfl
        · -- a client has a session again
          rw [founders_bind]
          refine fun r => ?_
          cases r with
          | error f => exact hkept rfl rfl
          | ok e => exact hkept rfl rfl
    | listen n =>
      show Founders y (listen n) l (.fallen x before) [] _
      unfold listen
      simp only [founders_bind, founders_get]
      split
      · exact hkept rfl rfl
      · exact hkept rfl rfl
    | abort => exact hkept rfl rfl
    | shutdown dir =>
      cases dir with
      | both => cases hm
      | write =>
        show Founders y (shutdownWrite ops me) l (.fallen x before) [] _
        unfold shutdownWrite sendCloseNotify
        simp only [founders_bind, founders_get]
        split
        · exact hkept rfl rfl
        · simp only [founders_bind, founders_get, hp]
          exact hkept rfl rfl
      | read => exact hkept rfl rfl
    | close => cases hm
    | _ => exact hkept rfl rfl

end Secure

end Conduit
