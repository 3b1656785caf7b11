import Conduit.Layer.Context

/-!
# What layers ask

A layer works on what is below it. It asks nothing of a connection but one that it has been told is below, it passes no
event on to it, and letting its own connection go is the last thing that it does.

* `Program.Inward`: a program that keeps to this, and what holds when it ends. Its equations take a program apart.
* `Layer.Act.Stays`: one that does not let its connection go.
* `Method.Settled`: which methods let a connection go.
-/

namespace Conduit

variable {H : Host}

/-- An event from below arrives. -/
def Method.isLower : Method → Bool
  | .op (.lower _) => true
  | _ => false

/-- A connection was asked to be closed, and says that it is. -/
def Method.closes : (m : Method) → m.Reply → Bool
  | .op .close, .ok () => true
  | _, _ => false

/-- A connection that says that it is closed has been let go, one that is aborted has not. -/
structure Method.Settled (m : Method) (released : Bool) (reply : m.Reply) : Prop where
  closed : m.closes reply = true → released = true
  aborted : m = .op .abort → released = false

theorem Method.Settled.of_false {m : Method} {reply : m.Reply} (h : m.closes reply = false) : m.Settled false reply :=
  ⟨fun hc => absurd hc (by simp [h]), fun _ => rfl⟩

/-- An error has arrived. -/
def Event.isError : Event → Bool
  | .error _ => true
  | _ => false

namespace Program

variable {α β : Type} {top : Bool} {K : List Handle} {post post' : List Handle → Bool → α → Prop}

/-- A program of a layer that asks only connections of `K` and those that it is told are below, and ends as `post` says
of the connections that it has been told, whether it has let its own connection go, and its result. Only where an event
has arrived from below, `top`, may it end its connection for a fault, or put a layer on an accepted one. -/
def Inward (top : Bool) : Program (Layer.io H) α → List Handle → (List Handle → Bool → α → Prop) → Prop
  | .done a, K, post => post K false a
  | .ask r next, K, post =>
    match r, next with
    | .inner, next => ∀ x : Option Handle, (next x).Inward top (x.toList ++ K) post
    | .ask id o, next => id ∈ K ∧ (Method.op o).isLower = false ∧ ∀ x, (next x).Inward top K post
    | .emit e, next => e.isError = false ∧ (next ()).Inward top K post
    | .release, next => ∃ a, next () = .done a ∧ post K true a
    | .fail _, next => top = true ∧ ∃ a, next () = .done a ∧ post K true a
    -- a handle that was told before may name another connection now
    | .cover _ _, next => top = true ∧ ∀ x, (next x).Inward top [] post
    | .pollInterval, next => ∀ x, (next x).Inward top K post
    | .note _, next => (next ()).Inward top K post
    | .pcb _ _, next => ∀ x, (next x).Inward top K post
    | .newEngine _ _, next => ∀ x, (next x).Inward top K post
    | .shared, next => ∀ x, (next x).Inward top K post
    | .setShared _, next => (next ()).Inward top K post

theorem Inward.mono {p : Program (Layer.io H) α} (h : p.Inward top K post)
    (hp : ∀ K r a, post K r a → post' K r a) : p.Inward top K post' := by
  induction p generalizing K with
  | done a => exact hp _ _ _ h
  | ask r next ih =>
    cases r with
    | inner => exact fun x => ih x (h x)
    | ask => exact ⟨h.1, h.2.1, fun x => ih x (h.2.2 x)⟩
    | emit => exact ⟨h.1, ih _ h.2⟩
    | release =>
      obtain ⟨a, ha, hpost⟩ := h
      exact ⟨a, ha, hp _ _ _ hpost⟩
    | fail =>
      obtain ⟨ht, a, ha, hpost⟩ := h
      exact ⟨ht, a, ha, hp _ _ _ hpost⟩
    | cover => exact ⟨h.1, fun x => ih x (h.2 x)⟩
    | pollInterval | pcb | newEngine | shared => exact fun x => ih x (h x)
    | note | setShared => exact ih _ h

/-- What is allowed of any method is allowed where an event arrives. -/
theorem Inward.lift {p : Program (Layer.io H) α} (h : p.Inward false K post) : p.Inward top K post := by
  induction p generalizing K with
  | done a => exact h
  | ask r next ih =>
    cases r with
    | inner => exact fun x => ih x (h x)
    | ask => exact ⟨h.1, h.2.1, fun x => ih x (h.2.2 x)⟩
    | emit => exact ⟨h.1, ih _ h.2⟩
    | release => exact h
    | fail | cover => cases h.1
    | pollInterval | pcb | newEngine | shared => exact fun x => ih x (h x)
    | note | setShared => exact ih _ h

theorem bind_eq_done {I : Interface} {p : Program I α} {f : α → Program I β} {c : β} :
    p >>= f = .done c ↔ ∃ a, p = .done a ∧ f a = .done c := by
  cases p with
  | done a => simp
  | ask r next => simp

/-- Nothing comes after the end of a connection. -/
theorem inward_bind (p : Program (Layer.io H) α) (f : α → Program (Layer.io H) β)
    {post : List Handle → Bool → β → Prop} :
    (p >>= f).Inward top K post ↔ p.Inward top K fun K' released a =>
      if released then ∃ c, f a = .done c ∧ post K' true c else (f a).Inward top K' post := by
  induction p generalizing K with
  | done a =>
    show (f a).Inward top K post ↔
      if false = true then ∃ c, f a = .done c ∧ post K true c else (f a).Inward top K post
    rw [if_neg Bool.false_ne_true]
  | ask r next ih =>
    rw [ask_bind]
    cases r with
    | inner => exact forall_congr' fun x => ih x
    | ask => exact and_congr_right fun _ => and_congr_right fun _ => forall_congr' fun x => ih x
    | emit => exact and_congr_right fun _ => ih _
    | release =>
      show (∃ c, (next () >>= f : Program _ β) = .done c ∧ post K true c) ↔
        ∃ a, next () = .done a ∧ if true = true then _ else _
      simp only [bind_eq_done, if_true]
      grind
    | fail =>
      show (top = true ∧ ∃ c, (next () >>= f : Program _ β) = .done c ∧ post K true c) ↔
        top = true ∧ ∃ a, next () = .done a ∧ if true = true then _ else _
      simp only [bind_eq_done, if_true]
      grind
    | cover => exact and_congr_right fun _ => forall_congr' fun x => ih x
    | pollInterval | pcb | newEngine | shared => exact forall_congr' fun x => ih x
    | note | setShared => exact ih _

end Program

namespace Layer.Act

variable {σ α β : Type} {top : Bool} {K : List Handle} {s : σ} {post post' : List Handle → Bool → α → σ → Prop}

/-- The program of a layer in the state `s` asks only as it may, and ends as `post` says of the connections that it has
been told, whether its own is let go, its result, and the state it leaves. -/
def Inward (top : Bool) (m : Act H σ α) (s : σ) (K : List Handle) (post : List Handle → Bool → α → σ → Prop) : Prop :=
  Program.Inward top (m s) K fun K' released a => post K' released a.1 a.2

theorem Inward.mono {m : Act H σ α} (h : Inward top m s K post) (hp : ∀ K r a s, post K r a s → post' K r a s) :
    Inward top m s K post' :=
  Program.Inward.mono h fun K r a => hp K r a.1 a.2

@[simp] theorem inward_pure (a : α) : Inward top (pure a : Act H σ α) s K post ↔ post K false a s := Iff.rfl

@[simp] theorem inward_get {post : List Handle → Bool → σ → σ → Prop} :
    Inward top (get : Act H σ σ) s K post ↔ post K false s s := Iff.rfl

@[simp] theorem inward_set (s' : σ) {post : List Handle → Bool → PUnit → σ → Prop} :
    Inward top (set s' : Act H σ PUnit) s K post ↔ post K false ⟨⟩ s' := Iff.rfl

@[simp] theorem inward_modify (f : σ → σ) {post : List Handle → Bool → PUnit → σ → Prop} :
    Inward top (modify f : Act H σ PUnit) s K post ↔ post K false ⟨⟩ (f s) := Iff.rfl

/-- A program that does not let its connection go may be followed by another. -/
theorem Inward.bind {m : Act H σ α} {f : α → Act H σ β} {post : List Handle → Bool → β → σ → Prop}
    (h : Inward top m s K fun K' released a s' => released = false ∧ Inward top (f a) s' K' post) :
    Inward top (m >>= f) s K post := by
  refine (Program.inward_bind (m s) _).2 (Program.Inward.mono h ?_)
  rintro K' released a ⟨rfl, ha⟩
  exact ha

/-- What only makes up the answer may follow any program. -/
theorem Inward.map {m : Act H σ α} {f : α → β} {post : List Handle → Bool → β → σ → Prop}
    (h : Inward top m s K fun K' released a s' => post K' released (f a) s') :
    Inward top (m >>= fun a => pure (f a)) s K post := by
  refine (Program.inward_bind (m s) _).2 (Program.Inward.mono h fun K' released a ha => ?_)
  split
  · rename_i hr
    subst hr
    exact ⟨_, rfl, ha⟩
  · rename_i hr
    rw [Bool.not_eq_true] at hr
    subst hr
    exact ha

/-- What a program is told of the connection below, it may ask. -/
theorem inward_inner {f : Option Handle → Act H σ β} {post : List Handle → Bool → β → σ → Prop}
    (h : ∀ x : Option Handle, Inward top (f x) s (x.toList ++ K) post) : Inward top (inner >>= f) s K post := h

theorem inward_ask {id : Handle} {o : Op} {f : o.Reply → Act H σ β} {post : List Handle → Bool → β → σ → Prop}
    (hid : id ∈ K) (ho : (Method.op o).isLower = false) (h : ∀ x, Inward top (f x) s K post) :
    Inward top (ask id o >>= f) s K post := ⟨hid, ho, h⟩

/-- Nothing that was told before is known of the connections after one has come. -/
theorem inward_cover {i : Handle} {l : Tls.Layer H.Source H.Engine} {f : Except Fault Handle → Act H σ β}
    {post : List Handle → Bool → β → σ → Prop} (h : ∀ x, Inward true (f x) s [] post) :
    Inward true (cover i l >>= f) s K post := ⟨rfl, h⟩

theorem inward_modify_bind {g : σ → σ} {f : PUnit → Act H σ β} {post : List Handle → Bool → β → σ → Prop}
    (h : Inward top (f ⟨⟩) (g s) K post) : Inward top (modify g >>= f) s K post := h

theorem inward_note {n : Note} {f : Unit → Act H σ β} {post : List Handle → Bool → β → σ → Prop}
    (h : Inward top (f ()) s K post) : Inward top (note n >>= f) s K post := h

/-- A program that asks only as it may, and does not let its connection go. -/
def Stays (m : Act H σ α) : Prop := ∀ s K, Inward false m s K fun _ released _ _ => released = false

/-- Within the method of an arriving event, too. -/
theorem Stays.inward {m : Act H σ α} (h : m.Stays) (hp : ∀ K a s, post K false a s) : Inward top m s K post := by
  refine (Program.Inward.lift (h s K)).mono ?_
  rintro K' released a rfl
  exact hp K' a.1 a.2

theorem Stays.bind {m : Act H σ α} {f : α → Act H σ β} (h : m.Stays) (hf : ∀ a, (f a).Stays) : (m >>= f).Stays :=
  fun s K => (Inward.mono (h s K) fun _ _ a s' hr => ⟨hr, hf a s' _⟩ : Inward false m s K _).bind

/-- A program that stays may come before any. -/
theorem Stays.then {m : Act H σ α} {f : α → Act H σ β} {post : List Handle → Bool → β → σ → Prop} (h : m.Stays)
    (hf : ∀ a s K, Inward top (f a) s K post) : Inward top (m >>= f) s K post :=
  (h.inward fun K a s => ⟨rfl, hf a s K⟩ : Inward top m s K _).bind

theorem stays_pure (a : α) : (pure a : Act H σ α).Stays := fun _ _ => rfl

theorem stays_get : (get : Act H σ σ).Stays := fun _ _ => rfl

theorem stays_set (s : σ) : (set s : Act H σ PUnit).Stays := fun _ _ => rfl

theorem stays_modify (f : σ → σ) : (modify f : Act H σ PUnit).Stays := fun _ _ => rfl

theorem stays_note (n : Note) : (note n : Act H σ Unit).Stays := fun _ _ => rfl

theorem stays_emit {e : Event} (he : e.isError = false) : (emit e : Act H σ Unit).Stays := fun _ _ => ⟨he, rfl⟩

theorem stays_pollInterval : (pollInterval : Act H σ Nat).Stays := fun _ _ _ => rfl

theorem stays_pcb (p : PcbRef H.Pcb) (o : PcbOp) : (pcb p o : Act H σ o.Reply).Stays := fun _ _ _ => rfl

theorem stays_newEngine (config : Tls.Config H.Source) (name : Option Tls.ServerName) :
    (newEngine config name : Act H σ (Except Fault H.Engine)).Stays := fun _ _ _ => rfl

theorem stays_map {m : Act H σ α} (h : m.Stays) (f : α → β) : (m >>= fun a => pure (f a)).Stays :=
  h.bind fun _ => stays_pure _

/-- The connection below is asked one thing, if there is one. -/
theorem stays_below {o : Op} (ho : (Method.op o).isLower = false) (absent : o.Reply) :
    (below o absent : Act H σ o.Reply).Stays := by
  intro s K
  refine inward_inner fun x => ?_
  cases x with
  | none => rfl
  | some id => exact ⟨by simp, ho, fun _ => rfl⟩

end Layer.Act

end Conduit
