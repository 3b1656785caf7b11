import Conduit.Layer.Secure
import Conduit.Proofs.Runs
import Conduit.Proofs.Segments

/-!
# Engines at work

An engine sees a stream of ciphertext, takes bytes from its front, and pushes bytes of its own. What its surroundings
decide is how much of each push is accepted.

* `Works`: the runs of an engine over a stream.
* `Relays`: what a layer asks of the connection below while its engine pushes.
* `drive_does`: driving the engine of a session is a run of it over the ciphertext that has arrived.
-/

namespace Conduit

open Layer Layer.Act

namespace Tls

/-- A push of an engine, and how it was answered. -/
structure Push where
  data : Bytes
  answer : Except Fault Nat

/-- The bytes of a push that were accepted. -/
def Push.accepted (p : Push) : Bytes :=
  match p.answer with
  | .ok n => p.data.take n
  | .error _ => []

/-- The bytes that a run has sent. -/
def sent (ps : List Push) : Bytes := ps.flatMap Push.accepted

@[simp] theorem sent_nil : sent [] = [] := rfl

@[simp] theorem sent_cons (p : Push) (ps : List Push) : sent (p :: ps) = p.accepted ++ sent ps := rfl

@[simp] theorem sent_append (ps qs : List Push) : sent (ps ++ qs) = sent ps ++ sent qs := by
  simp [sent]

section Works

variable {V α β : Type}

/-- How a request of an engine may be answered over a stream: what it pushes, and what is left of the stream. -/
inductive Hears : (r : RecordReq V) → r.Ans → Bytes → List Push → Bytes → Prop
  | available (c : Bytes) : Hears .available c.length c [] c
  | peek (n : Nat) (c : Bytes) : Hears (.peek n) (c.take n) c [] c
  | pull (n : Nat) (c : Bytes) : Hears (.pull n) (c.take n) c [] (c.drop n)
  | push (d : Bytes) (x : Except Fault Nat) (hx : ∀ n, x = .ok n → n ≤ d.length) (c : Bytes) :
      Hears (.push d) x c [⟨d, x⟩] c
  | note (n : Note) (c : Bytes) : Hears (.note n) () c [] c
  | shared (v : V) (c : Bytes) : Hears .shared v c [] c
  | setShared (v : V) (c : Bytes) : Hears (.setShared v) () c [] c

/-- `Works p c ps c' a`: over the stream `c`, `p` makes the pushes `ps`, leaves `c'`, and ends with `a`. -/
inductive Works : EngineAct V α → Bytes → List Push → Bytes → α → Prop
  | done (a : α) (c : Bytes) : Works (.done a) c [] c a
  | ask {r : RecordReq V} {next : r.Ans → EngineAct V α} {x : r.Ans} {c c₁ c' : Bytes} {ps qs : List Push} {a : α}
      (hx : Hears r x c ps c₁) (h : Works (next x) c₁ qs c' a) : Works (.ask r next) c (ps ++ qs) c' a

theorem Hears.suffix {r : RecordReq V} {x : r.Ans} {c c' : Bytes} {ps : List Push} (h : Hears r x c ps c') :
    ∃ y, c = y ++ c' := by
  cases h with
  | pull n c => exact ⟨c.take n, (List.take_append_drop n c).symm⟩
  | _ => exact ⟨[], rfl⟩

/-- An engine only takes from the front of the stream. -/
theorem Works.suffix {p : EngineAct V α} {c c' : Bytes} {ps : List Push} {a : α} (h : Works p c ps c' a) :
    ∃ y, c = y ++ c' := by
  induction h with
  | done => exact ⟨[], rfl⟩
  | ask hx _ ih =>
    obtain ⟨y, rfl⟩ := hx.suffix
    obtain ⟨z, rfl⟩ := ih
    exact ⟨y ++ z, (List.append_assoc ..).symm⟩

theorem Works.length_le {p : EngineAct V α} {c c' : Bytes} {ps : List Push} {a : α} (h : Works p c ps c' a) :
    c'.length ≤ c.length := by
  obtain ⟨y, rfl⟩ := h.suffix
  simp

theorem Works.bind {p : EngineAct V α} {f : α → EngineAct V β} {c c₁ c' : Bytes} {ps qs : List Push} {a : α} {b : β}
    (hp : Works p c ps c₁ a) (hf : Works (f a) c₁ qs c' b) : Works (p >>= f) c (ps ++ qs) c' b := by
  induction hp with
  | done => exact hf
  | ask hx _ ih =>
    rw [List.append_assoc]
    exact .ask hx (ih hf)

theorem Works.of_bind {p : EngineAct V α} {f : α → EngineAct V β} {c c' : Bytes} {ps : List Push} {b : β}
    (h : Works (p >>= f) c ps c' b) :
    ∃ a c₁ ps₁ ps₂, ps = ps₁ ++ ps₂ ∧ Works p c ps₁ c₁ a ∧ Works (f a) c₁ ps₂ c' b := by
  induction p generalizing c ps with
  | done a => exact ⟨a, c, [], ps, rfl, .done a c, h⟩
  | ask r next ih =>
    cases h with
    | ask hx h =>
      obtain ⟨a, c₁, ps₁, ps₂, rfl, h₁, h₂⟩ := ih _ h
      exact ⟨a, c₁, _, ps₂, (List.append_assoc ..).symm, .ask hx h₁, h₂⟩

/-! ### Taking an engine apart -/

/-- Over the stream `c`, every run of `p` ends as `post` says of its result, its pushes and the stream it leaves. -/
def Runs (p : EngineAct V α) (c : Bytes) (post : α → List Push → Bytes → Prop) : Prop :=
  ∀ ps c' a, Works p c ps c' a → post a ps c'

variable {c : Bytes} {post post' : α → List Push → Bytes → Prop}

theorem Runs.mono {p : EngineAct V α} (h : Runs p c post) (hp : ∀ a ps c', post a ps c' → post' a ps c') :
    Runs p c post' :=
  fun ps c' a hw => hp _ _ _ (h ps c' a hw)

@[simp] theorem runs_done (a : α) : Runs (V := V) (.done a) c post ↔ post a [] c := by
  constructor
  · intro h
    exact h _ _ _ (.done a c)
  · rintro h ps c' x ⟨⟩
    exact h

@[simp] theorem runs_bind (p : EngineAct V α) (f : α → EngineAct V β) {post : β → List Push → Bytes → Prop} :
    Runs (p >>= f) c post ↔ Runs p c fun a ps c₁ => Runs (f a) c₁ fun x qs c' => post x (ps ++ qs) c' := by
  constructor
  · intro h ps c₁ a hp qs c' x hf
    exact h _ _ _ (hp.bind hf)
  · intro h ps c' x hw
    obtain ⟨a, c₁, ps₁, ps₂, rfl, hp, hf⟩ := hw.of_bind
    exact h _ _ _ hp _ _ _ hf

theorem runs_request (r : RecordReq V) {post : r.Ans → List Push → Bytes → Prop} :
    Runs (α := no_index r.Ans) (Program.request (I := recordIo V) r) c post ↔
      ∀ x ps c', Hears r x c ps c' → post x ps c' := by
  constructor
  · intro h x ps c' hx
    have := h _ _ _ (.ask hx (.done x c'))
    rwa [List.append_nil] at this
  · intro h ps c' x hw
    cases hw with
    | ask hx hd =>
      cases hd
      rw [List.append_nil]
      exact h _ _ _ hx

@[simp] theorem runs_available {post : Nat → List Push → Bytes → Prop} :
    Runs (Program.request (I := recordIo V) .available) c post ↔ post c.length [] c := by
  rw [runs_request]
  constructor
  · intro h
    exact h _ _ _ (.available c)
  · rintro h x ps c' ⟨⟩
    exact h

@[simp] theorem runs_peek (n : Nat) {post : Bytes → List Push → Bytes → Prop} :
    Runs (Program.request (I := recordIo V) (.peek n)) c post ↔ post (c.take n) [] c := by
  rw [runs_request]
  constructor
  · intro h
    exact h _ _ _ (.peek n c)
  · rintro h x ps c' ⟨⟩
    exact h

@[simp] theorem runs_pull (n : Nat) {post : Bytes → List Push → Bytes → Prop} :
    Runs (Program.request (I := recordIo V) (.pull n)) c post ↔ post (c.take n) [] (c.drop n) := by
  rw [runs_request]
  constructor
  · intro h
    exact h _ _ _ (.pull n c)
  · rintro h x ps c' ⟨⟩
    exact h

@[simp] theorem runs_push (d : Bytes) {post : Except Fault Nat → List Push → Bytes → Prop} :
    Runs (Program.request (I := recordIo V) (.push d)) c post ↔
      ∀ x, (∀ n, x = .ok n → n ≤ d.length) → post x [⟨d, x⟩] c := by
  rw [runs_request]
  constructor
  · intro h x hx
    exact h _ _ _ (.push d x hx c)
  · intro h x ps c' hx
    cases hx with
    | push _ _ hx => exact h x hx

end Works

/-! ## Driving an engine -/

variable {H : Host} {b : Handle}

/-- What a layer does for one push: it asks how much room there is below and writes what fits. -/
inductive Relay (b : Handle) : Push → Trace H → Prop
  | full {d : Bytes} {room : Nat} (h : min room d.length = 0) :
      Relay b ⟨d, .ok 0⟩ [⟨.ask b .sndbuf, room⟩]
  | written {d : Bytes} {room : Nat} (h : min room d.length ≠ 0) :
      Relay b ⟨d, .ok (min room d.length)⟩
        [⟨.ask b .sndbuf, room⟩, ⟨.ask b (.write (d.take (min room d.length)) .copy), .ok ()⟩]
  | busy {d : Bytes} {room : Nat} (h : min room d.length ≠ 0) :
      Relay b ⟨d, .ok 0⟩
        [⟨.ask b .sndbuf, room⟩, ⟨.ask b (.write (d.take (min room d.length)) .copy), .error .wouldBlock⟩]
  | refused {d : Bytes} {room : Nat} {f : Fault} (h : min room d.length ≠ 0) (hf : f ≠ .wouldBlock) :
      Relay b ⟨d, .error f⟩
        [⟨.ask b .sndbuf, room⟩, ⟨.ask b (.write (d.take (min room d.length)) .copy), .error f⟩]

/-- What a layer does for the pushes of a run, one after the other. -/
inductive Relays (b : Handle) : List Push → Trace H → Prop
  | nil : Relays b [] []
  | cons {p : Push} {ps : List Push} {u v : Trace H} (h : Relay b p u) (hs : Relays b ps v) : Relays b (p :: ps) (u ++ v)

theorem Relay.le {p : Push} {u : Trace H} (h : Relay b p u) : ∀ n, p.answer = .ok n → n ≤ p.data.length := by
  intro n hn
  cases h with
  | refused => cases hn
  | full | busy => cases hn; exact Nat.zero_le _
  | written => cases hn; exact Nat.min_le_right ..

theorem Relays.append {ps qs : List Push} {u v : Trace H} (hu : Relays b ps u) (hv : Relays b qs v) :
    Relays b (ps ++ qs) (u ++ v) := by
  induction hu with
  | nil => exact hv
  | cons h _ ih => rw [List.cons_append, List.append_assoc]; exact .cons h ih

theorem push_does {f : Feed} {d : Bytes} {post : Except Fault Nat → Trace H → Feed → Prop}
    (h : ∀ x u, Relay b ⟨d, x⟩ u → post x u f) : Does b (Feed.push d) f post := by
  unfold Feed.push
  simp only [does_bind, does_inner]
  simp only [does_ask]
  intro room
  split
  · rename_i h0
    simpa using h _ _ (.full h0)
  · rename_i h0
    simp only [does_bind, does_ask]
    intro y
    cases y with
    | ok _ => simpa using h _ _ (.written h0)
    | error g =>
      by_cases hg : g = .wouldBlock
      · subst hg
        simpa using h _ _ (.busy h0)
      · simpa using h _ _ (.refused h0 hg)

/-- One request of an engine, as a layer answers it. -/
theorem answer_does {f : Feed} (hf : f.rx.WellFormed) (r : RecordReq H.Shared)
    {post : r.Ans → Trace H → Feed → Prop}
    (h : ∀ x (f' : Feed) ps u, Hears r x f.rx.toList ps f'.rx.toList → f'.rx.WellFormed →
      f'.taken + f'.rx.size = f.taken + f.rx.size → Relays b ps u → post x u f') :
    Does b (Feed.answer r) f post := by
  cases r with
  | available =>
    have := h f.rx.size f [] [] (by rw [hf.size_eq]; exact .available _) hf rfl .nil
    simpa [Feed.answer] using this
  | peek n =>
    have := h (f.rx.peek n) f [] [] (by rw [Segments.peek_eq]; exact .peek _ _) hf rfl .nil
    simpa [Feed.answer] using this
  | pull n =>
    obtain ⟨h₁, h₂, h₃⟩ := Segments.read_eq hf (n := n)
    have := h (f.rx.read n).1 ⟨(f.rx.read n).2, f.taken + (f.rx.read n).1.length⟩ [] []
      (by rw [h₁]; simp only [h₂]; exact .pull _ _) h₃
      (by simp only [h₃.size_eq, h₂, h₁, hf.size_eq, List.length_take, List.length_drop]; omega) .nil
    simpa [Feed.answer] using this
  | push d =>
    refine push_does fun x u hu => h x f [⟨d, x⟩] u (.push _ _ hu.le _) hf rfl ?_
    simpa using Relays.cons hu .nil
  | note n => simpa [Feed.answer] using h () f [] [] (.note _ _) hf rfl .nil
  | shared => exact (does_request_of_ne (by simp)).2 fun v => h v f [] [] (.shared _ _) hf rfl .nil
  | setShared v => exact (does_request_of_ne (by simp)).2 fun _ => h () f [] [] (.setShared _ _) hf rfl .nil

theorem run_does {α : Type} (p : EngineAct H.Shared α) {f : Feed} (hf : f.rx.WellFormed)
    {Q : α → Trace H → Feed → Prop}
    (h : ∀ a (f' : Feed) ps u, Works p f.rx.toList ps f'.rx.toList a → f'.rx.WellFormed →
      f'.taken + f'.rx.size = f.taken + f.rx.size → Relays b ps u → Q a u f') :
    Does b (p.run Feed.answer) f Q := by
  induction p generalizing f Q with
  | done a => simpa using h a f [] [] (.done _ _) hf rfl .nil
  | ask r next ih =>
    rw [Program.run_ask, does_bind]
    refine answer_does hf r fun x f₁ ps u hx hf₁ hs hu => ih x hf₁ fun a f' qs v ha hf' hs' hv => ?_
    exact h a f' _ _ (.ask hx ha) hf' (hs'.trans hs) (hu.append hv)

/-- After its engine has worked, and left `rx` of the ciphertext. -/
def Session.worked {E : Type} (s : Session E) (e : E) (rx : Segments) : Session E :=
  { s with engine := e, rx := rx, bytesRead := s.bytesRead + (s.rx.size - rx.size) }

/-- `Drives b s p a u s'`: over `b`, running the engine of `s` by `p` yields `a`, with the deeds `u`, and leaves `s'`. -/
inductive Drives {α : Type} (b : Handle) (s : Session H.Engine) (p : EngineAct H.Shared (H.Engine × α)) :
    α → Trace H → Session H.Engine → Prop
  | intro {ps : List Push} {rx : Segments} {e : H.Engine} {a : α} {u : Trace H}
      (hw : Works p s.rx.toList ps rx.toList (e, a)) (hrx : rx.WellFormed) (hu : Relays b ps u) :
      Drives b s p a u (s.worked e rx)

/-- **Driving an engine.** The engine works over the ciphertext that has arrived; what it takes is counted, and its
pushes go to the connection below. -/
theorem drive_does {σ α : Type} {s : Session H.Engine} (hs : s.rx.WellFormed)
    {p : EngineAct H.Shared (H.Engine × α)} {l : σ} {post : Session H.Engine × α → Trace H → σ → Prop}
    (h : ∀ a u s', Drives b s p a u s' → post (s', a) u l) : Does b (s.drive p) l post := by
  have hr := run_does p (f := ⟨s.rx, s.bytesRead⟩) hs
    (Q := fun r u f' => post ({ s with engine := r.1, rx := f'.rx, bytesRead := f'.taken }, r.2) u l)
    fun r f' ps u hw hf' hn hu => by
      have hle : f'.rx.size ≤ s.rx.size := by rw [hf'.size_eq, hs.size_eq]; exact hw.length_le
      have hb : f'.taken = s.bytesRead + (s.rx.size - f'.rx.size) := by
        simp only at hn
        omega
      rw [hb]
      exact h _ _ _ (.intro hw hf' hu)
  intro t a l' ht hb
  obtain ⟨u, v, ⟨c, f'⟩, rfl, hu, hv⟩ := ht.of_bind
  cases hv
  obtain ⟨hbu, -⟩ := over_append.1 hb
  simpa using hr u c f' hu hbu

end Tls

end Conduit
