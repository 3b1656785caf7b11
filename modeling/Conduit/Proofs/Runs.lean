import Conduit.Layer.Context

/-!
# Runs of programs

What a program does depends on how it is answered. A run is recorded as the list of its requests, each with its
answer; nothing is assumed about where the answers come from.

* `Program.Yields`: the runs of a program.
* `Layer.deeds`: the requests of a layer of which something comes.
* `Layer.Act.Does`: what holds of every run of a layer's program over a connection. Its equations take a method apart.
-/

namespace Conduit

/-- A request and its answer. -/
structure Exchange (I : Interface) where
  req : I.Req
  ans : I.Ans req

namespace Program

variable {I : Interface} {α β : Type}

/-- `p.Yields t a`: asked and answered as in `t`, `p` ends with `a`. -/
inductive Yields : Program I α → List (Exchange I) → α → Prop
  | done (a : α) : Yields (.done a) [] a
  | ask {r : I.Req} {next : I.Ans r → Program I α} {x : I.Ans r} {t : List (Exchange I)} {a : α}
      (h : Yields (next x) t a) : Yields (.ask r next) (⟨r, x⟩ :: t) a

theorem Yields.bind {p : Program I α} {f : α → Program I β} {t u : List (Exchange I)} {a : α} {b : β}
    (hp : p.Yields t a) (hf : (f a).Yields u b) : (p >>= f).Yields (t ++ u) b := by
  induction hp with
  | done a => exact hf
  | ask _ ih => exact .ask (ih hf)

theorem Yields.of_bind {p : Program I α} {f : α → Program I β} {t : List (Exchange I)} {b : β}
    (h : (p >>= f).Yields t b) : ∃ u v a, t = u ++ v ∧ p.Yields u a ∧ (f a).Yields v b := by
  induction p generalizing t with
  | done a => exact ⟨[], t, a, rfl, .done a, h⟩
  | ask r next ih =>
    cases h with
    | ask h =>
      obtain ⟨u, v, a, rfl, hu, hv⟩ := ih _ h
      exact ⟨_ :: u, v, a, rfl, .ask hu, hv⟩

/-- Runs a program against answers that are fixed beforehand. -/
def play (answer : (r : I.Req) → I.Ans r) : Program I α → List (Exchange I) × α
  | .done a => ([], a)
  | .ask r next =>
    let (t, a) := (next (answer r)).play answer
    (⟨r, answer r⟩ :: t, a)

theorem play_yields (answer : (r : I.Req) → I.Ans r) (p : Program I α) :
    p.Yields (p.play answer).1 (p.play answer).2 := by
  induction p with
  | done a => exact .done a
  | ask r next ih => exact .ask (ih (answer r))

theorem mem_play {answer : (r : I.Req) → I.Ans r} {p : Program I α} {x : Exchange I} (hx : x ∈ (p.play answer).1) :
    x.ans = answer x.req := by
  induction p with
  | done a => cases hx
  | ask r next ih =>
    rcases List.mem_cons.1 hx with rfl | hx
    · rfl
    · exact ih _ hx

end Program

namespace Layer

variable {H : Host}

/-- What a layer has asked, and how it was answered. -/
abbrev Trace (H : Host) := List (Exchange (io H))

/-- The connection below is `b`. -/
def Over (b : Handle) (t : Trace H) : Prop := ∀ x, ⟨.inner, x⟩ ∈ t → x = some b

theorem over_nil {b : Handle} : Over b ([] : Trace H) := by simp [Over]

theorem over_append {b : Handle} {t u : Trace H} : Over b (t ++ u) ↔ Over b t ∧ Over b u := by
  simp only [Over, List.mem_append]
  constructor
  · intro h
    exact ⟨fun x hx => h x (.inl hx), fun x hx => h x (.inr hx)⟩
  · rintro ⟨h₁, h₂⟩ x (hx | hx)
    · exact h₁ x hx
    · exact h₂ x hx

/-- Whether anything comes of a request but an entry in a log or a look around. -/
def isDeed : Exchange (io H) → Bool
  | ⟨.inner, _⟩ | ⟨.note _, _⟩ | ⟨.shared, _⟩ | ⟨.setShared _, _⟩ | ⟨.pollInterval, _⟩ => false
  | ⟨.ask _ _, _⟩ | ⟨.emit _, _⟩ | ⟨.release, _⟩ | ⟨.fail _, _⟩ | ⟨.pcb _ _, _⟩ | ⟨.cover _ _, _⟩
  | ⟨.newEngine _ _, _⟩ => true

/-- The requests of a run of which something comes. -/
def deeds (t : Trace H) : Trace H := t.filter isDeed

@[simp] theorem deeds_nil : deeds ([] : Trace H) = [] := rfl

@[simp] theorem deeds_append (t u : Trace H) : deeds (t ++ u) = deeds t ++ deeds u := List.filter_append ..

/-- Whatever disregards the requests of which nothing comes is the same of the deeds alone. -/
theorem apply_deeds {α : Type} (f : Trace H → α) (hcons : ∀ x t u, f t = f u → f (x :: t) = f (x :: u))
    (hskip : ∀ x t, isDeed x = false → f (x :: t) = f t) (t : Trace H) : f (deeds t) = f t := by
  induction t with
  | nil => rfl
  | cons x t ih =>
    unfold deeds at ih ⊢
    rw [List.filter_cons]
    split
    · exact hcons x _ _ ih
    · rename_i hx
      exact ih.trans (hskip x t (by simpa using hx)).symm

namespace Act

variable {σ α β : Type}

/-- Over `b`, every run of `p` from `s` ends as `post` says of its result, its deeds and the state it leaves. -/
def Does (b : Handle) (p : Act H σ α) (s : σ) (post : α → Trace H → σ → Prop) : Prop :=
  ∀ t a s', (p s).Yields t (a, s') → Over b t → post a (deeds t) s'

variable {b : Handle} {s : σ} {post post' : α → Trace H → σ → Prop}

theorem Does.mono {p : Act H σ α} (h : Does b p s post) (hp : ∀ a d s', post a d s' → post' a d s') :
    Does b p s post' :=
  fun t a s' ht hb => hp _ _ _ (h t a s' ht hb)

theorem Does.and {p : Act H σ α} (h : Does b p s post) (h' : Does b p s post') :
    Does b p s fun a d s' => post a d s' ∧ post' a d s' :=
  fun t a s' ht hb => ⟨h t a s' ht hb, h' t a s' ht hb⟩

@[simp] theorem does_pure (a : α) : Does b (pure a : Act H σ α) s post ↔ post a [] s := by
  constructor
  · intro h
    exact h [] a s (.done _) over_nil
  · rintro h t c s' ⟨⟩ _
    exact h

@[simp] theorem does_bind (p : Act H σ α) (f : α → Act H σ β) {post : β → Trace H → σ → Prop} :
    Does b (p >>= f) s post ↔ Does b p s fun a d s' => Does b (f a) s' fun c d' s'' => post c (d ++ d') s'' := by
  constructor
  · intro h t a s' ht hbt u c s'' hu hbu
    rw [← deeds_append]
    exact h (t ++ u) c s'' (ht.bind hu) (over_append.2 ⟨hbt, hbu⟩)
  · intro h w c s'' hw hb
    obtain ⟨t, u, ⟨a, s'⟩, rfl, ht, hu⟩ := hw.of_bind
    obtain ⟨hbt, hbu⟩ := over_append.1 hb
    rw [deeds_append]
    exact h t a s' ht hbt u c s'' hu hbu

@[simp] theorem does_map (f : α → β) (p : Act H σ α) {post : β → Trace H → σ → Prop} :
    Does b (f <$> p) s post ↔ Does b p s fun a => post (f a) := by
  rw [map_eq_pure_bind, does_bind]
  simp only [does_pure, List.append_nil]

@[simp] theorem does_get {post : σ → Trace H → σ → Prop} :
    Does b (get : Act H σ σ) s post ↔ post s [] s :=
  does_pure (H := H) (σ := σ) s

@[simp] theorem does_set (s' : σ) {post : PUnit → Trace H → σ → Prop} :
    Does b (set s' : Act H σ PUnit) s post ↔ post ⟨⟩ [] s' := by
  constructor
  · intro h
    exact h [] _ _ (.done _) over_nil
  · rintro h t c _ ⟨⟩ _
    exact h

@[simp] theorem does_modify (f : σ → σ) {post : PUnit → Trace H → σ → Prop} :
    Does b (modify f : Act H σ PUnit) s post ↔ post ⟨⟩ [] (f s) := by
  constructor
  · intro h
    exact h [] _ _ (.done _) over_nil
  · rintro h t c _ ⟨⟩ _
    exact h

theorem does_request (r : Req H) {post : r.Ans → Trace H → σ → Prop} :
    Does (α := no_index r.Ans) b (request r) s post ↔ ∀ x, Over (H := H) b [⟨r, x⟩] → post x (deeds [⟨r, x⟩]) s := by
  constructor
  · intro h x hx
    exact h _ x s (.ask (.done (x, s))) hx
  · intro h t x s' ht hb
    cases ht with
    | ask ht =>
      cases ht
      exact h _ hb

/-! ## The requests of a layer -/

/-- A request other than for the connection below. -/
theorem does_request_of_ne {r : Req H} (hr : r ≠ .inner) {post : r.Ans → Trace H → σ → Prop} :
    Does (α := no_index r.Ans) b (request r) s post ↔ ∀ x, post x (deeds [⟨r, x⟩]) s := by
  rw [does_request]
  constructor
  · intro h x
    refine h x fun y hy => ?_
    cases List.mem_singleton.1 hy
    exact absurd rfl hr
  · intro h x _
    exact h x

@[simp] theorem does_inner {post : Option Handle → Trace H → σ → Prop} :
    Does b inner s post ↔ post (some b) [] s := by
  rw [inner, does_request]
  constructor
  · intro h
    refine h (some b) fun y hy => ?_
    cases List.mem_singleton.1 hy
    rfl
  · intro h x hx
    rw [hx x (by simp)]
    exact h

@[simp] theorem does_ask (id : Handle) (o : Op) {post : o.Reply → Trace H → σ → Prop} :
    Does (α := no_index o.Reply) b (ask id o) s post ↔ ∀ x, post x [⟨.ask id o, x⟩] s :=
  does_request_of_ne (r := .ask id o) (by simp)

@[simp] theorem does_emit (e : Event) {post : Unit → Trace H → σ → Prop} :
    Does b (emit e) s post ↔ post () [⟨.emit e, ()⟩] s := by
  rw [emit, does_request_of_ne (by simp)]
  exact ⟨fun h => h (), fun h _ => h⟩

@[simp] theorem does_release {post : Unit → Trace H → σ → Prop} :
    Does b release s post ↔ post () [⟨.release, ()⟩] s := by
  rw [release, does_request_of_ne (by simp)]
  exact ⟨fun h => h (), fun h _ => h⟩

@[simp] theorem does_fail (f : Fault) {post : Unit → Trace H → σ → Prop} :
    Does b (fail f) s post ↔ post () [⟨.fail f, ()⟩] s := by
  rw [fail, does_request_of_ne (by simp)]
  exact ⟨fun h => h (), fun h _ => h⟩

@[simp] theorem does_note (n : Note) {post : Unit → Trace H → σ → Prop} :
    Does b (note n) s post ↔ post () [] s := by
  rw [note, does_request_of_ne (by simp)]
  exact ⟨fun h => h (), fun h _ => h⟩

@[simp] theorem does_cover (inner : Handle) (l : Tls.Layer H.Source H.Engine)
    {post : Except Fault Handle → Trace H → σ → Prop} :
    Does b (cover inner l) s post ↔ ∀ x, post x [⟨.cover inner l, x⟩] s :=
  does_request_of_ne (r := .cover inner l) (by simp)

@[simp] theorem does_newEngine (config : Tls.Config H.Source) (name : Option Tls.ServerName)
    {post : Except Fault H.Engine → Trace H → σ → Prop} :
    Does b (newEngine config name) s post ↔ ∀ x, post x [⟨.newEngine config name, x⟩] s :=
  does_request_of_ne (r := .newEngine config name) (by simp)

end Act

end Layer

end Conduit
