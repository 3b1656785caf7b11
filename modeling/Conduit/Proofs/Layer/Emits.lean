import Conduit.Layer.Plain
import Conduit.Proofs.Tls.Works

/-!
# What a layer hands up

A layer hands data up by events. What it has handed up when a method ends is told by the program of the method, whatever
its requests are answered.

* `Event.parcel`: the data that an event hands up.
* `Program.Emits`: how a program ends, and what it has handed up by then. `Emits.yields`: so it is in each of its runs.
* `Layer.Act.Emits`: the same of a layer with a state. Its equations take a method apart.
* `emits_drive`: a layer that drives its engine hands nothing up.
-/

namespace Conduit

open Layer

variable {H : Host} {α β σ : Type}

/-- The data that an event hands up. -/
def Event.parcel : Event → List Bytes
  | .recv data => [data]
  | _ => []

/-- The data that a request of a layer hands up. -/
def Layer.Req.parcel : Layer.Req H → List Bytes
  | .emit e => e.parcel
  | _ => []

/-- Whether a layer lets its connection go by a request. -/
def Layer.Req.lets : Layer.Req H → Bool
  | .release | .fail _ => true
  | _ => false

namespace Program

variable {new : Tls.Layer H.Source H.Engine → Prop} {mid post' : α → Bool → List Bytes → Prop}
  {post : β → Bool → List Bytes → Prop} {flag : Bool} {out : List Bytes}

/-- Whatever it is answered, a program ends as `post` says of its result, of whether its connection is to go, and of the
data that was handed up, where `out` was before. The layers that it puts on accepted connections are `new`. -/
def Emits (new : Tls.Layer H.Source H.Engine → Prop) (post : α → Bool → List Bytes → Prop) :
    Program (Layer.io H) α → Bool → List Bytes → Prop
  | .done a, flag, out => post a flag out
  | .ask r next, flag, out =>
    match r, next with
    | .emit e, next => (next ()).Emits new post flag (out ++ e.parcel)
    | .release, next => (next ()).Emits new post true out
    | .fail _, next => (next ()).Emits new post true out
    | .cover _ l, next => new l ∧ ∀ x, (next x).Emits new post flag out
    | _, next => ∀ x, (next x).Emits new post flag out

theorem Emits.mono {p : Program (Layer.io H) α} (h : p.Emits new mid flag out)
    (hp : ∀ a flag out, mid a flag out → post' a flag out) : p.Emits new post' flag out := by
  induction p generalizing flag out with
  | done a => exact hp _ _ _ h
  | ask r next ih =>
    cases r with
    | emit | release | fail => exact ih () h
    | cover => exact ⟨h.1, fun x => ih x (h.2 x)⟩
    | _ => exact fun x => ih x (h x)

/-- What is left of a program when its first request was answered. -/
theorem Emits.next {r : Layer.Req H} {next : r.Ans → Program (Layer.io H) α}
    (h : (Program.ask r next).Emits new mid flag out) :
    (∀ i l, r = .cover i l → new l) ∧ ∀ x, (next x).Emits new mid (flag || r.lets) (out ++ r.parcel) := by
  cases r with
  | emit e =>
    refine ⟨by rintro _ _ ⟨⟩, fun _ => ?_⟩
    show (next ()).Emits new mid (flag || false) (out ++ e.parcel)
    rw [Bool.or_false]
    exact h
  | release | fail =>
    refine ⟨by rintro _ _ ⟨⟩, fun _ => ?_⟩
    show (next ()).Emits new mid (flag || true) (out ++ [])
    rw [Bool.or_true, List.append_nil]
    exact h
  | cover i l =>
    refine ⟨fun i' l' hl => ?_, fun x => ?_⟩
    · cases hl
      exact h.1
    · show (next x).Emits new mid (flag || false) (out ++ [])
      rw [Bool.or_false, List.append_nil]
      exact h.2 x
  | _ =>
    refine ⟨by rintro _ _ ⟨⟩, fun x => ?_⟩
    show (next x).Emits new mid (flag || false) (out ++ [])
    rw [Bool.or_false, List.append_nil]
    exact h x

/-- What a run has handed up is told beforehand. -/
theorem Emits.yields {p : Program (Layer.io H) α} (h : p.Emits new mid flag out) {t : Layer.Trace H} {a : α}
    (hy : p.Yields t a) : mid a (flag || t.any (·.req.lets)) (out ++ t.flatMap (·.req.parcel)) := by
  induction hy generalizing flag out with
  | done a =>
    rw [List.any_nil, Bool.or_false, List.flatMap_nil, List.append_nil]
    exact h
  | ask _ ih =>
    rw [List.any_cons, ← Bool.or_assoc, List.flatMap_cons, ← List.append_assoc]
    exact ih (h.next.2 _)

theorem emits_bind (p : Program (Layer.io H) α) (f : α → Program (Layer.io H) β) :
    (p >>= f).Emits new post flag out ↔ p.Emits new (fun a flag out => (f a).Emits new post flag out) flag out := by
  induction p generalizing flag out with
  | done a => exact Iff.rfl
  | ask r next ih =>
    cases r with
    | emit | release | fail => exact ih ()
    | cover => exact and_congr_right fun _ => forall_congr' fun x => ih x
    | _ => exact forall_congr' fun x => ih x

end Program

namespace Layer.Act

variable {new : Tls.Layer H.Source H.Engine → Prop} {s : σ} {flag : Bool} {out : List Bytes}
  {post post' : α → σ → Bool → List Bytes → Prop}

/-- Whatever it is answered, a layer in the state `s` ends a program as `post` says of the result, of the state that it
leaves, of whether its connection is to go, and of the data that was handed up. -/
def Emits (new : Tls.Layer H.Source H.Engine → Prop) (m : Act H σ α) (s : σ) (flag : Bool) (out : List Bytes)
    (post : α → σ → Bool → List Bytes → Prop) : Prop :=
  Program.Emits new (fun a => post a.1 a.2) (m s) flag out

theorem Emits.mono {m : Act H σ α} (h : Emits new m s flag out post)
    (hp : ∀ a s flag out, post a s flag out → post' a s flag out) : Emits new m s flag out post' :=
  Program.Emits.mono h fun a flag out => hp a.1 a.2 flag out

@[simp] theorem emits_pure (a : α) : Emits new (pure a : Act H σ α) s flag out post ↔ post a s flag out := Iff.rfl

@[simp] theorem emits_bind (m : Act H σ α) (f : α → Act H σ β) {post : β → σ → Bool → List Bytes → Prop} :
    Emits new (m >>= f) s flag out post ↔
      Emits new m s flag out fun a s flag out => Emits new (f a) s flag out post :=
  Program.emits_bind (m s) fun a => f a.1 a.2

@[simp] theorem emits_get {post : σ → σ → Bool → List Bytes → Prop} :
    Emits new (get : Act H σ σ) s flag out post ↔ post s s flag out := Iff.rfl

@[simp] theorem emits_set (s' : σ) {post : PUnit → σ → Bool → List Bytes → Prop} :
    Emits new (set s' : Act H σ PUnit) s flag out post ↔ post ⟨⟩ s' flag out := Iff.rfl

@[simp] theorem emits_modify (f : σ → σ) {post : PUnit → σ → Bool → List Bytes → Prop} :
    Emits new (modify f : Act H σ PUnit) s flag out post ↔ post ⟨⟩ (f s) flag out := Iff.rfl

@[simp] theorem emits_inner {post : Option Handle → σ → Bool → List Bytes → Prop} :
    Emits new inner s flag out post ↔ ∀ x, post x s flag out := Iff.rfl

@[simp] theorem emits_ask (id : Handle) (o : Op) {post : o.Reply → σ → Bool → List Bytes → Prop} :
    Emits (α := no_index o.Reply) new (ask id o) s flag out post ↔ ∀ x, post x s flag out := Iff.rfl

@[simp] theorem emits_emit (e : Event) {post : Unit → σ → Bool → List Bytes → Prop} :
    Emits new (emit e) s flag out post ↔ post () s flag (out ++ e.parcel) := Iff.rfl

@[simp] theorem emits_release {post : Unit → σ → Bool → List Bytes → Prop} :
    Emits new release s flag out post ↔ post () s true out := Iff.rfl

@[simp] theorem emits_fail (f : Fault) {post : Unit → σ → Bool → List Bytes → Prop} :
    Emits new (fail f) s flag out post ↔ post () s true out := Iff.rfl

@[simp] theorem emits_pollInterval {post : Nat → σ → Bool → List Bytes → Prop} :
    Emits new pollInterval s flag out post ↔ ∀ x, post x s flag out := Iff.rfl

@[simp] theorem emits_note (n : Note) {post : Unit → σ → Bool → List Bytes → Prop} :
    Emits new (note n) s flag out post ↔ post () s flag out :=
  ⟨fun h => h (), fun h _ => h⟩

@[simp] theorem emits_pcb (p : PcbRef H.Pcb) (o : PcbOp) {post : o.Reply → σ → Bool → List Bytes → Prop} :
    Emits (α := no_index o.Reply) new (pcb p o) s flag out post ↔ ∀ x, post x s flag out := Iff.rfl

@[simp] theorem emits_cover (i : Handle) (l : Tls.Layer H.Source H.Engine)
    {post : Except Fault Handle → σ → Bool → List Bytes → Prop} :
    Emits new (cover i l) s flag out post ↔ new l ∧ ∀ x, post x s flag out := Iff.rfl

@[simp] theorem emits_newEngine (config : Tls.Config H.Source) (name : Option Tls.ServerName)
    {post : Except Fault H.Engine → σ → Bool → List Bytes → Prop} :
    Emits new (newEngine config name) s flag out post ↔ ∀ x, post x s flag out := Iff.rfl

/-- The connection below is asked one thing, if there is one. -/
theorem emits_below {o : Op} {absent : o.Reply} {post : o.Reply → σ → Bool → List Bytes → Prop}
    (h : ∀ x, post x s flag out) : Emits new (below o absent) s flag out post := by
  unfold below
  simp only [emits_bind, emits_inner]
  intro x
  cases x with
  | none => exact h absent
  | some id => exact fun y => h y

end Layer.Act

namespace Tls

open Layer.Act

variable {new : Layer H.Source H.Engine → Prop} {flag : Bool} {out : List Bytes} {f : Feed}

theorem emits_push {d : Bytes} {post : Except Fault Nat → Feed → Bool → List Bytes → Prop}
    (h : ∀ x, (∀ n, x = .ok n → n ≤ d.length) → post x f flag out) : Emits new (Feed.push d) f flag out post := by
  unfold Feed.push
  simp only [emits_bind, emits_inner]
  intro x
  cases x with
  | none => exact h _ nofun
  | some id =>
    simp only [emits_bind, emits_ask]
    intro room
    split
    · exact h _ fun n hn => by cases hn; exact Nat.zero_le _
    · simp only [emits_bind, emits_ask]
      intro y
      split
      · exact h _ fun n hn => by cases hn; exact Nat.min_le_right ..
      · exact h _ fun n hn => by cases hn; exact Nat.zero_le _
      · exact h _ nofun

/-- One request of an engine, as a layer answers it. -/
theorem emits_answer (hf : f.rx.WellFormed) (r : RecordReq H.Shared)
    {post : r.Ans → Feed → Bool → List Bytes → Prop}
    (h : ∀ x (f' : Feed) ps, Hears r x f.rx.toList ps f'.rx.toList → f'.rx.WellFormed → post x f' flag out) :
    Emits new (Feed.answer r) f flag out post := by
  cases r with
  | available => exact h f.rx.size f [] (by rw [hf.size_eq]; exact .available _) hf
  | peek n => exact h (f.rx.peek n) f [] (by rw [Segments.peek_eq]; exact .peek _ _) hf
  | pull n =>
    obtain ⟨h₁, h₂, h₃⟩ := Segments.read_eq hf (n := n)
    exact h (f.rx.read n).1 ⟨(f.rx.read n).2, f.taken + (f.rx.read n).1.length⟩ []
      (by rw [h₁]; simp only [h₂]; exact .pull _ _) h₃
  | push d => exact emits_push fun x hx => h x f [⟨d, x⟩] (.push _ _ hx _) hf
  | note n => exact fun _ => h () f [] (.note _ _) hf
  | shared => exact fun v => h v f [] (.shared _ _) hf
  | setShared v => exact fun _ => h () f [] (.setShared _ _) hf

theorem emits_run {α : Type} (p : EngineAct H.Shared α) (hf : f.rx.WellFormed)
    {post : α → Feed → Bool → List Bytes → Prop}
    (h : ∀ a (f' : Feed) ps, Works p f.rx.toList ps f'.rx.toList a → f'.rx.WellFormed → post a f' flag out) :
    Emits new (p.run Feed.answer) f flag out post := by
  induction p generalizing f with
  | done a => exact h a f [] (.done _ _) hf
  | ask r next ih =>
    rw [Program.run_ask, emits_bind]
    refine emits_answer hf r fun x f₁ ps hx hf₁ => ih x hf₁ fun a f' qs ha hf' => ?_
    exact h a f' _ (.ask hx ha) hf'

/-- **Driving an engine** hands nothing up: the engine works over the ciphertext that has arrived. -/
theorem emits_drive {s : Session H.Engine} (hs : s.rx.WellFormed) {p : EngineAct H.Shared (H.Engine × α)} {l : σ}
    {post : Session H.Engine × α → σ → Bool → List Bytes → Prop}
    (h : ∀ a e ps (rx : Segments) n, Works p s.rx.toList ps rx.toList (e, a) → rx.WellFormed →
      post ({ s with engine := e, rx, bytesRead := n }, a) l flag out) : Emits new (s.drive p) l flag out post := by
  refine (Program.emits_bind _ _).2 ?_
  exact emits_run p (f := ⟨s.rx, s.bytesRead⟩) hs fun r f' ps hw hf' => h r.2 r.1 ps f'.rx f'.taken hw hf'

end Tls

end Conduit
