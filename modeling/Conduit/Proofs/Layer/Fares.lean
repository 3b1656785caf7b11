import Conduit.Loopback.Net
import Conduit.Proofs.Segments
import Conduit.Layer.Context

/-!
# Layers over an endpoint

How a layer fares over an open endpoint of the loopback net. What is known of its surroundings is the endpoint: whether
it has room, what it takes in, what was acknowledged to it.

* `Serves`: what an endpoint answers, and what becomes of it.
* `Layer.Act.Fares`: over an open endpoint a program asks only what can be answered, and ends as it should. Its
  equations take a method apart.
-/

namespace Conduit

namespace Loopback.Pcb

/-- Whether an endpoint takes data in. -/
def IsOpen (p : Pcb) : Prop := (p.state = .established ∨ p.state = .closeWait) ∧ p.finQueued = false

/-- How much more an endpoint takes in. -/
def room (o : Options) (p : Pcb) : Nat := o.sndbuf - p.unsent.size

/-- An endpoint that has taken data in. -/
def wrote (p : Pcb) (d : Bytes) : Pcb := { p with unsent := p.unsent.push d, written := p.written + d.length }

/-- An endpoint to which data was acknowledged. -/
def heeded (p : Pcb) (n : Nat) : Pcb := { p with acked := min (p.acked + n) p.received }

@[simp] theorem wrote_nil (p : Pcb) : p.wrote [] = p := rfl

theorem IsOpen.wrote {p : Pcb} (h : p.IsOpen) (d : Bytes) : (p.wrote d).IsOpen := h

theorem IsOpen.heeded {p : Pcb} (h : p.IsOpen) (n : Nat) : (p.heeded n).IsOpen := h

end Loopback.Pcb

open Loopback

variable {H : Host}

/-- What the endpoint below `low` answers to a layer, what becomes of it, and what the layer emits. -/
inductive Serves (o : Loopback.Options) (low : Handle) :
    (r : Layer.Req H) → Pcb → r.Ans → Pcb → List Event → Prop
  | inner (p : Pcb) : Serves o low .inner p (some low) p []
  | sndbuf (p : Pcb) : Serves o low (.ask low .sndbuf) p (p.room o) p []
  | write (p : Pcb) (d : Bytes) (f : WriteFlags) (ho : p.IsOpen) (hd : d ≠ []) (hr : d.length ≤ p.room o) :
      Serves o low (.ask low (.write d f)) p (.ok ()) (p.wrote d) []
  | output (p : Pcb) : Serves o low (.ask low .output) p (.ok ()) p []
  | recved (p : Pcb) (n : Nat) : Serves o low (.ask low (.recved n)) p () (p.heeded n) []
  | emit (p : Pcb) (e : Event) (he : ∀ f, e ≠ .error f) : Serves o low (.emit e) p () p [e]
  | note (p : Pcb) (n : Note) : Serves o low (.note n) p () p []
  | shared (p : Pcb) (v : H.Shared) : Serves o low .shared p v p []
  | setShared (p : Pcb) (v : H.Shared) : Serves o low (.setShared v) p () p []

namespace Program

variable {α β : Type} {o : Loopback.Options} {low : Handle} {p : Pcb}

/-- Over the endpoint `p`, the program asks only what is answered, and ends as `post` says of its result, the endpoint
and what was emitted. -/
def Fares (o : Loopback.Options) (low : Handle) :
    Program (Layer.io H) α → Pcb → (α → Pcb → List Event → Prop) → Prop
  | .done a, p, post => post a p []
  -- what is asked for the shared state is answered only if there is such a state
  | .ask r next, p, post => (H.Shared → ∃ x q es, Serves o low r p x q es) ∧
      ∀ x q es, Serves o low r p x q es → Fares o low (next x) q fun a q' fs => post a q' (es ++ fs)

theorem Fares.mono {m : Program (Layer.io H) α} {post post' : α → Pcb → List Event → Prop}
    (h : Fares o low m p post) (hp : ∀ a q es, post a q es → post' a q es) : Fares o low m p post' := by
  induction m generalizing p post post' with
  | done a => exact hp _ _ _ h
  | ask r next ih => exact ⟨h.1, fun x q es hs => ih x (h.2 x q es hs) fun a q' fs => hp a q' _⟩

theorem fares_bind (m : Program (Layer.io H) α) (f : α → Program (Layer.io H) β) {post : β → Pcb → List Event → Prop} :
    Fares o low (m >>= f) p post ↔
      Fares o low m p fun a q es => Fares o low (f a) q fun c q' fs => post c q' (es ++ fs) := by
  induction m generalizing p post with
  | done a => rfl
  | ask r next ih =>
    rw [ask_bind]
    unfold Fares
    refine and_congr_right fun _ => forall_congr' fun x => forall_congr' fun q => forall_congr' fun es =>
      forall_congr' fun _ => ?_
    rw [ih]
    simp only [List.append_assoc]

end Program

namespace Layer.Act

variable {σ α β : Type} {o : Loopback.Options} {low : Handle} {s : σ} {p : Pcb}
  {post post' : α → σ → Pcb → List Event → Prop}

/-- Over the endpoint `p`, a program that starts in the state `s` asks only what is answered, and ends as `post` says
of its result, the state it leaves, the endpoint and what was emitted. -/
def Fares (o : Loopback.Options) (low : Handle) (m : Act H σ α) (s : σ) (p : Pcb)
    (post : α → σ → Pcb → List Event → Prop) : Prop :=
  Program.Fares o low (m s) p fun a => post a.1 a.2

theorem Fares.mono {m : Act H σ α} (h : Fares o low m s p post) (hp : ∀ a s q es, post a s q es → post' a s q es) :
    Fares o low m s p post' :=
  Program.Fares.mono h fun a => hp a.1 a.2

@[simp] theorem fares_pure (a : α) : Fares o low (pure a : Act H σ α) s p post ↔ post a s p [] := Iff.rfl

@[simp] theorem fares_bind (m : Act H σ α) (f : α → Act H σ β) {post : β → σ → Pcb → List Event → Prop} :
    Fares o low (m >>= f) s p post ↔
      Fares o low m s p fun a s' q es => Fares o low (f a) s' q fun c s'' q' fs => post c s'' q' (es ++ fs) :=
  Program.fares_bind (m s) _

@[simp] theorem fares_map (f : α → β) (m : Act H σ α) {post : β → σ → Pcb → List Event → Prop} :
    Fares o low (f <$> m) s p post ↔ Fares o low m s p fun a => post (f a) := by
  rw [map_eq_pure_bind, fares_bind]
  simp only [fares_pure, List.append_nil]

@[simp] theorem fares_get {post : σ → σ → Pcb → List Event → Prop} :
    Fares o low (get : Act H σ σ) s p post ↔ post s s p [] := Iff.rfl

@[simp] theorem fares_set (s' : σ) {post : PUnit → σ → Pcb → List Event → Prop} :
    Fares o low (set s' : Act H σ PUnit) s p post ↔ post ⟨⟩ s' p [] := Iff.rfl

@[simp] theorem fares_modify (f : σ → σ) {post : PUnit → σ → Pcb → List Event → Prop} :
    Fares o low (modify f : Act H σ PUnit) s p post ↔ post ⟨⟩ (f s) p [] := Iff.rfl

theorem fares_request (r : Req H) {post : r.Ans → σ → Pcb → List Event → Prop} :
    Fares (α := no_index r.Ans) o low (request r) s p post ↔
      (H.Shared → ∃ x q es, Serves o low r p x q es) ∧ ∀ x q es, Serves o low r p x q es → post x s q es := by
  show ((H.Shared → ∃ x q es, Serves o low r p x q es) ∧ ∀ x q es, Serves o low r p x q es → post x s q (es ++ [])) ↔ _
  simp only [List.append_nil]

@[simp] theorem fares_inner {post : Option Handle → σ → Pcb → List Event → Prop} :
    Fares (H := H) (α := no_index (Option Handle)) o low inner s p post ↔ post (some low) s p [] := by
  rw [inner, fares_request]
  constructor
  · intro h
    exact h.2 _ _ _ (.inner p)
  · intro h
    refine ⟨fun _ => ⟨_, _, _, .inner p⟩, ?_⟩
    rintro x q es ⟨⟩
    exact h

@[simp] theorem fares_sndbuf {post : Nat → σ → Pcb → List Event → Prop} :
    Fares (H := H) (α := no_index Nat) o low (ask low .sndbuf) s p post ↔ post (p.room o) s p [] := by
  show Fares o low (request (.ask low .sndbuf)) s p post ↔ _
  rw [fares_request]
  constructor
  · intro h
    exact h.2 _ _ _ (.sndbuf p)
  · intro h
    refine ⟨fun _ => ⟨_, _, _, .sndbuf p⟩, ?_⟩
    rintro x q es ⟨⟩
    exact h

theorem fares_write (d : Bytes) (f : WriteFlags) {post : Outcome → σ → Pcb → List Event → Prop} (ho : p.IsOpen)
    (hd : d ≠ []) (hr : d.length ≤ p.room o) (h : post (.ok ()) s (p.wrote d) []) :
    Fares (H := H) (α := no_index Outcome) o low (ask low (.write d f)) s p post := by
  show Fares o low (request (.ask low (.write d f))) s p post
  rw [fares_request]
  refine ⟨fun _ => ⟨_, _, _, .write p d f ho hd hr⟩, ?_⟩
  rintro x q es ⟨⟩
  exact h

@[simp] theorem fares_output {post : Outcome → σ → Pcb → List Event → Prop} :
    Fares (H := H) (α := no_index Outcome) o low (ask low .output) s p post ↔ post (.ok ()) s p [] := by
  show Fares o low (request (.ask low .output)) s p post ↔ _
  rw [fares_request]
  constructor
  · intro h
    exact h.2 _ _ _ (.output p)
  · intro h
    refine ⟨fun _ => ⟨_, _, _, .output p⟩, ?_⟩
    rintro x q es ⟨⟩
    exact h

@[simp] theorem fares_recved (n : Nat) {post : Unit → σ → Pcb → List Event → Prop} :
    Fares (H := H) (α := no_index Unit) o low (ask low (.recved n)) s p post ↔ post () s (p.heeded n) [] := by
  show Fares o low (request (.ask low (.recved n))) s p post ↔ _
  rw [fares_request]
  constructor
  · intro h
    exact h.2 _ _ _ (.recved p n)
  · intro h
    refine ⟨fun _ => ⟨_, _, _, .recved p n⟩, ?_⟩
    rintro x q es ⟨⟩
    exact h

theorem fares_emit {e : Event} (he : ∀ f, e ≠ .error f) {post : Unit → σ → Pcb → List Event → Prop} :
    Fares (H := H) (α := no_index Unit) o low (emit e) s p post ↔ post () s p [e] := by
  rw [emit, fares_request]
  constructor
  · intro h
    exact h.2 _ _ _ (.emit p e he)
  · intro h
    refine ⟨fun _ => ⟨_, _, _, .emit p e he⟩, ?_⟩
    rintro x q es ⟨⟩
    exact h

@[simp] theorem fares_note (n : Note) {post : Unit → σ → Pcb → List Event → Prop} :
    Fares (H := H) (α := no_index Unit) o low (note n) s p post ↔ post () s p [] := by
  rw [note, fares_request]
  constructor
  · intro h
    exact h.2 _ _ _ (.note p n)
  · intro h
    refine ⟨fun _ => ⟨_, _, _, .note p n⟩, ?_⟩
    rintro x q es ⟨⟩
    exact h

end Layer.Act

end Conduit
