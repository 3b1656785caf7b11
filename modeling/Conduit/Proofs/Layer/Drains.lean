import Conduit.Proofs.Layer.Flows
import Conduit.Proofs.Tls.Obliging
import Conduit.Proofs.Tls.Shapes
import Mathlib.Algebra.GroupWithZero.Nat
import Mathlib.Data.List.Induction

/-!
# A plain layer that is read no more

Once its read half is shut, a plain layer hands nothing up. What it holds it acknowledges and drops, but not while the
verdict on a delivery is out. A verdict that is a refusal brings that no further: what was refused is dropped only when the
layer is called for the next event.

* `Act.Ran`: what holds of every run of a layer's program. Its equations take a method apart.
* `Plain.Past`: the calls that a plain layer has had, whatever its endpoint answered.
* `Plain.Turn`: what a call makes of a layer that is read no more.
* `Plain.Past.shutdown_drains`: **what a layer holds when it is read no more is accepted, or acknowledged once.**
-/

namespace Conduit

variable {H : Host}

/-! ## Runs -/

namespace Layer

/-- Whether a request hands up data or the end of the stream. -/
def Req.tells : Req H → Bool
  | .emit (.recv _) | .emit .eof => true
  | _ => false

/-- What a request acknowledges. -/
def Req.acks : Req H → Nat
  | .pcb _ (.recved n) => n
  | _ => 0

/-- Nothing was handed up. -/
def Mute (t : Trace H) : Prop := ∀ x ∈ t, x.req.tells = false

/-- What was acknowledged. -/
def acknowledged (t : Trace H) : Nat := (t.map fun x => x.req.acks).sum

variable {t u : Trace H} {x : Exchange (io H)}

@[simp] theorem mute_nil : Mute ([] : Trace H) := by simp [Mute]

@[simp] theorem mute_cons : Mute (x :: t) ↔ x.req.tells = false ∧ Mute t := by simp [Mute]

@[simp] theorem mute_append : Mute (t ++ u) ↔ Mute t ∧ Mute u := by simp [Mute, or_imp, forall_and]

@[simp] theorem acknowledged_nil : acknowledged ([] : Trace H) = 0 := rfl

@[simp] theorem acknowledged_cons : acknowledged (x :: t) = x.req.acks + acknowledged t := by simp [acknowledged]

@[simp] theorem acknowledged_append : acknowledged (t ++ u) = acknowledged t + acknowledged u := by simp [acknowledged]

namespace Act

variable {σ α β : Type} {s : σ} {post post' : α → Trace H → σ → Prop}

/-- Every run of `p` from `s` ends as `post` says of its result, of what was asked and answered, and of the state it
leaves. -/
def Ran (p : Act H σ α) (s : σ) (post : α → Trace H → σ → Prop) : Prop := ∀ t a s', (p s).Yields t (a, s') → post a t s'

theorem Ran.mono {p : Act H σ α} (h : Ran p s post) (hp : ∀ a t s', post a t s' → post' a t s') : Ran p s post' :=
  fun t a s' ht => hp a t s' (h t a s' ht)

@[simp] theorem ran_pure (a : α) : Ran (pure a : Act H σ α) s post ↔ post a [] s := by
  constructor
  · intro h
    exact h [] a s (.done _)
  · rintro h t c s' ⟨⟩
    exact h

@[simp] theorem ran_bind (p : Act H σ α) (f : α → Act H σ β) {post : β → Trace H → σ → Prop} :
    Ran (p >>= f) s post ↔ Ran p s fun a t s' => Ran (f a) s' fun c u s'' => post c (t ++ u) s'' := by
  constructor
  · intro h t a s' ht u c s'' hu
    exact h (t ++ u) c s'' (ht.bind hu)
  · intro h w c s'' hw
    obtain ⟨t, u, ⟨a, s'⟩, rfl, ht, hu⟩ := hw.of_bind
    exact h t a s' ht u c s'' hu

@[simp] theorem ran_get {post : σ → Trace H → σ → Prop} : Ran (get : Act H σ σ) s post ↔ post s [] s :=
  ran_pure (H := H) (σ := σ) s

@[simp] theorem ran_set (s' : σ) {post : PUnit → Trace H → σ → Prop} :
    Ran (set s' : Act H σ PUnit) s post ↔ post ⟨⟩ [] s' := by
  constructor
  · intro h
    exact h [] _ _ (.done _)
  · rintro h t c _ ⟨⟩
    exact h

@[simp] theorem ran_modify (f : σ → σ) {post : PUnit → Trace H → σ → Prop} :
    Ran (modify f : Act H σ PUnit) s post ↔ post ⟨⟩ [] (f s) := ran_set (s := s) (f s)

theorem ran_request (r : Req H) {post : r.Ans → Trace H → σ → Prop} :
    Ran (α := no_index r.Ans) (request r) s post ↔ ∀ x, post x [⟨r, x⟩] s := by
  constructor
  · intro h x
    exact h _ x s (.ask (.done (x, s)))
  · intro h t x s' ht
    cases ht with
    | ask ht =>
      cases ht
      exact h x

@[simp] theorem ran_pcb (p : PcbRef H.Pcb) (o : PcbOp) {post : o.Reply → Trace H → σ → Prop} :
    Ran (α := no_index o.Reply) (pcb p o) s post ↔ ∀ x, post x [⟨.pcb p o, x⟩] s := ran_request (.pcb p o)

@[simp] theorem ran_emit (e : Event) {post : Unit → Trace H → σ → Prop} :
    Ran (emit e) s post ↔ ∀ x, post x [⟨.emit e, x⟩] s := ran_request (.emit e)

@[simp] theorem ran_note (n : Note) {post : Unit → Trace H → σ → Prop} :
    Ran (note n) s post ↔ ∀ x, post x [⟨.note n, x⟩] s := ran_request (.note n)

@[simp] theorem ran_release {post : Unit → Trace H → σ → Prop} :
    Ran release s post ↔ ∀ x, post x [⟨.release, x⟩] s := ran_request .release

@[simp] theorem ran_fail (f : Fault) {post : Unit → Trace H → σ → Prop} :
    Ran (fail f) s post ↔ ∀ x, post x [⟨.fail f, x⟩] s := ran_request (.fail f)

@[simp] theorem ran_pollInterval {post : Nat → Trace H → σ → Prop} :
    Ran pollInterval s post ↔ ∀ x, post x [⟨.pollInterval, x⟩] s := ran_request .pollInterval

end Act

end Layer

open Layer Layer.Act

namespace Plain

/-! ## Offers -/

variable {Q : Type} {p : PcbRef H.Pcb} {l l' l₀ : Plain H.Pcb} {me : Handle}

/-- What is left of a layer that drops what it holds, unless a verdict is out. -/
def emptied (l : Plain Q) : Plain Q := if l.inFlight.isSome then l else { l with rx := .empty }

/-- What it owes for that. -/
def owed (l : Plain Q) : Nat := if l.inFlight.isSome then 0 else l.rx.size

theorem ran_withPcb (hp : l.pcb = some p) (o : PcbOp) (absent : o.Reply) {post : o.Reply → Trace H → Plain H.Pcb → Prop} :
    Ran (withPcb o absent) l post ↔ ∀ x, post x [⟨.pcb p o, x⟩] l := by
  unfold withPcb
  simp only [ran_bind, ran_get, hp, ran_pcb, List.nil_append]

/-- An offer of a layer that is read no more. -/
theorem offer_ran (hw : l.rx.WellFormed) (hs : l.rxShut = true) (hp : l.pcb = some p) :
    Ran (offer me) l fun _ t l' => Mute t ∧ acknowledged t = l.owed ∧ l' = l.emptied := by
  unfold offer owed emptied
  simp only [ran_bind, ran_get, List.nil_append]
  by_cases hi : l.inFlight.isSome = true
  · simp only [if_pos hi, ran_pure]
    exact ⟨mute_nil, acknowledged_nil, trivial⟩
  · simp only [if_neg hi, if_pos hs]
    by_cases hrx : 0 < l.rx.size
    · simp only [if_pos hrx, ran_bind, ran_set, List.nil_append]
      refine (ran_withPcb (l := { l with rx := .empty }) hp _ _).2 fun _ => ?_
      simp only [ran_note]
      exact fun _ => ⟨by simp [Req.tells], by simp [Req.acks], trivial⟩
    · simp only [if_neg hrx, ran_pure]
      have hzero : l.rx.size = 0 := by omega
      refine ⟨mute_nil, hzero.symm, ?_⟩
      rw [← hw.eq_empty hzero]

/-! ## Calls -/

/-- Whether an event, or another shutdown, makes a layer that is read no more look after what it holds. -/
def offers : (m : Method) → m.Reply → Bool
  | .op (.lower (.recv _)), _ | .op (.lower .eof), _ | .op (.lower .poll), _ | .op (.shutdown .read), .ok _ => true
  | _, _ => false

/-- What a method of a layer that is read no more makes of it, and what it acknowledges by that. -/
inductive Turn (l : Plain Q) : (m : Method) → m.Reply → Nat → Plain Q → Prop
  | arrived (data : Bytes) (r : Outcome) :
      Turn l (.op (.lower (.recv data))) r (owed { l with rx := l.rx.push data }) (emptied { l with rx := l.rx.push data })
  | ended (r : Outcome) : Turn l (.op (.lower .eof)) r l.owed (emptied { l with finPending := true })
  | polled (r : Outcome) : Turn l (.op (.lower .poll)) r l.owed l.emptied
  | deafened : Turn l (.op (.shutdown .read)) (.ok ()) l.owed l.emptied
  | accepted {n : Nat} (hi : l.inFlight = some n) :
      Turn l (.settled (.ok ())) () (l.rx.size - n) { l with inFlight := none, rx := .empty }
  | refused {n : Nat} (hi : l.inFlight = some n) (f : Fault) : Turn l (.settled (.error f)) () 0 { l with inFlight := none }
  | idle {m : Method} {r : m.Reply} (ho : offers m r = false) (hv : ∀ v, m = .settled v → l.inFlight = none) :
      Turn l m r 0 l

/-- What a layer acknowledges of its own accord, and not because it was asked to. -/
def spent : Method → Trace H → Nat
  | .op (.recved _), _ => 0
  | _, t => acknowledged t

/-- A call that makes a turn, and hands nothing up, unless it lets the connection go. -/
def Turns (l : Plain H.Pcb) (m : Method) (r : m.Reply) (t : Trace H) (l' : Plain H.Pcb) : Prop :=
  Tls.frees t = false → Mute t ∧ l.Turn m r (spent m t) l'

theorem lower_turns (hw : l.rx.WellFormed) (hs : l.rxShut = true) (hp : l.pcb = some p) (e : Event) :
    Ran (step me (.op (.lower e))) l fun r t l' => l.Turns (.op (.lower e)) r t l' := by
  unfold step
  simp only [ran_bind, ran_pure, List.append_nil]
  cases e with
  | recv data =>
    unfold lower
    simp only [ran_bind, ran_modify, List.nil_append]
    refine (offer_ran (l := { l with rx := l.rx.push data }) hw.push hs hp).mono ?_
    rintro _ t _ ⟨hmute, hacked, rfl⟩ -
    refine ⟨hmute, ?_⟩
    show Turn l _ _ (acknowledged t) _
    rw [hacked]
    exact .arrived data _
  | eof =>
    unfold lower
    simp only [ran_bind, ran_get, ran_note, ran_modify, List.nil_append]
    intro _
    refine (offer_ran (l := { l with finPending := true }) hw hs hp).mono ?_
    rintro _ t _ ⟨hmute, hacked, rfl⟩ -
    refine ⟨by simp [Req.tells, hmute], ?_⟩
    show Turn l _ _ (acknowledged ([⟨.note _, _⟩] ++ t)) _
    rw [acknowledged_append, hacked, acknowledged_cons, acknowledged_nil]
    simp only [Req.acks, Nat.zero_add]
    exact .ended _
  | poll =>
    unfold lower
    simp only [ran_bind, ran_emit]
    refine (offer_ran hw hs hp).mono ?_
    rintro _ t _ ⟨hmute, hacked, rfl⟩ x -
    refine ⟨by simp [Req.tells, hmute], ?_⟩
    show Turn l _ _ (acknowledged (t ++ [⟨.emit .poll, x⟩])) _
    rw [acknowledged_append, hacked, acknowledged_cons, acknowledged_nil]
    simp only [Req.acks, Nat.add_zero]
    exact .polled _
  | error reason =>
    unfold lower
    simp only [ran_bind, ran_note, ran_modify, ran_fail]
    intro _ _ hf
    simp [Tls.frees] at hf
  | accept | connected | sent =>
    unfold lower
    simp only [ran_emit]
    exact fun _ _ => ⟨by simp [Req.tells], .idle rfl nofun⟩

theorem settle_turns (hw : l.rx.WellFormed) (hs : l.rxShut = true) (hp : l.pcb = some p) (v : Outcome) :
    Ran (step me (.settled v)) l fun r t l' => l.Turns (.settled v) r t l' := by
  show Ran (settle me v) l _
  unfold settle
  simp only [ran_bind, ran_get, List.nil_append]
  cases hi : l.inFlight with
  | none =>
    simp only [ran_pure]
    exact fun _ => ⟨mute_nil, .idle rfl fun _ _ => hi⟩
  | some n =>
    simp only [ran_bind, ran_modify, List.nil_append]
    cases v with
    | ok _ =>
      simp only [ran_bind, ran_modify, List.nil_append]
      refine (offer_ran (l := { l with inFlight := none, rx := l.rx.advance n }) hw.advance hs hp).mono ?_
      rintro _ t _ ⟨hmute, hacked, rfl⟩ -
      refine ⟨hmute, ?_⟩
      show Turn l _ _ (acknowledged t) _
      rw [hacked]
      show Turn l _ _ (l.rx.advance n).size _
      rw [Segments.size_advance]
      exact .accepted hi
    | error f =>
      simp only [ran_note]
      exact fun _ _ => ⟨by simp [Req.tells], .refused hi f⟩

/-- A shutdown of the read half, of a layer that may still have been read. -/
theorem deafen_ran (hw : l.rx.WellFormed) (hp : l.pcb = some p) :
    Ran (step me (.op (.shutdown .read))) l fun r t l' => Mute t ∧
      (r = .ok () → acknowledged t = l.owed ∧ l' = emptied { l with rxShut := true }) ∧
      (∀ f, r = .error f → acknowledged t = 0 ∧ l' = l) := by
  show Ran (shutdown me .read) l _
  unfold shutdown
  simp only [reduceCtorEq, if_false, ran_bind]
  refine (ran_withPcb hp _ _).2 fun x => ?_
  cases x with
  | error f =>
    simp only [ran_pure]
    exact ⟨by simp [Req.tells], nofun, fun _ _ => ⟨by simp [Req.acks], trivial⟩⟩
  | ok _ =>
    simp only [if_true, ran_bind, ran_modify, ran_pure]
    refine (offer_ran (l := { l with rxShut := true }) hw rfl hp).mono ?_
    rintro _ t _ ⟨hmute, hacked, rfl⟩
    refine ⟨by simp [Req.tells, hmute], fun _ => ⟨?_, rfl⟩, nofun⟩
    have howed : acknowledged t = l.owed := hacked
    simp [Req.acks, howed]

theorem close_turns (hp : l.pcb = some p) : Ran (close me) l fun _ t l' =>
    Tls.frees t = false → Mute t ∧ acknowledged t = 0 ∧ l' = l := by
  unfold close
  simp only [ran_bind, ran_get, hp, ran_pcb]
  intro _ x
  cases x with
  | ok _ =>
    simp only [ran_bind, ran_modify, ran_release, ran_pure]
    intro _ hf
    simp [Tls.frees] at hf
  | error f =>
    simp only [ran_bind, ran_pcb, ran_pollInterval, ran_note, ran_pure]
    intro _ _ _ _ _
    exact ⟨by simp [Req.tells], by simp [Req.acks], trivial⟩

/-- **What a call makes of a layer that is read no more.** -/
theorem step_turns (hw : l.rx.WellFormed) (hs : l.rxShut = true) (hp : l.pcb = some p) {m : Method} (ha : m ≠ .op .abort)
    (hd : m ≠ .dealloc) : Ran (step me m) l fun r t l' => l.Turns m r t l' := by
  -- an operation that the endpoint answers, other than an acknowledgment
  have hasks : ∀ (o : PcbOp) (absent : o.Reply), (∀ n, o ≠ .recved n) →
      Ran (withPcb o absent) l fun _ t l' => Mute t ∧ acknowledged t = 0 ∧ l' = l := by
    intro o absent hne
    refine (ran_withPcb hp _ _).2 fun x => ?_
    cases o with
    | recved n => exact absurd rfl (hne n)
    | _ => exact ⟨by simp [Req.tells], by simp [Req.acks], rfl⟩
  cases m with
  | dealloc => exact absurd rfl hd
  | settled v => exact settle_turns hw hs hp v
  | op o =>
    have hidle : ∀ {r : o.Reply} {t : Trace H} {l' : Plain H.Pcb}, offers (.op o) r = false → (∀ n, o ≠ .recved n) →
        Mute t ∧ acknowledged t = 0 ∧ l' = l → Mute t ∧ l.Turn (.op o) r (spent (.op o) t) l' := by
      rintro r t _ ho hne ⟨hmute, hacked, rfl⟩
      refine ⟨hmute, ?_⟩
      have hspent : spent (.op o) t = 0 := by
        unfold spent
        split
        · rfl
        · exact hacked
      rw [hspent]
      exact .idle ho nofun
    cases o with
    | abort => exact absurd rfl ha
    | lower e => exact lower_turns hw hs hp e
    | close => exact (close_turns hp).mono fun r t l' h hf => hidle rfl nofun (h hf)
    | shutdown dir =>
      cases dir with
      | both => exact (close_turns hp).mono fun r t l' h hf => hidle rfl nofun (h hf)
      | write =>
        show Ran (shutdown me .write) l _
        unfold shutdown
        simp only [reduceCtorEq, if_false, ran_bind]
        refine (hasks (.shutdown .write) (.error .closed) (by simp)).mono fun r t l' h => ?_
        rcases r with f | _ <;> simp only [ran_pure, List.append_nil] <;> exact fun _ => hidle rfl (by simp) h
      | read =>
        refine (deafen_ran hw hp).mono fun r t l' h _ => ⟨h.1, ?_⟩
        obtain ⟨-, hdone, hrefused⟩ := h
        show Turn l _ r (acknowledged t) l'
        rcases r with f | _
        · obtain ⟨hacked, rfl⟩ := hrefused f rfl
          rw [hacked]
          exact .idle rfl nofun
        · obtain ⟨hacked, rfl⟩ := hdone rfl
          rw [hacked]
          -- it was shut already
          have hsame : { l with rxShut := true } = l := by rw [← hs]
          rw [hsame]
          exact .deafened
    | recved n =>
      refine (ran_withPcb hp _ _).2 fun x _ => ⟨by simp [Req.tells], ?_⟩
      exact .idle rfl nofun
    | _ => exact (hasks _ _ (by simp)).mono fun r t l' h _ => hidle rfl (by simp) h

/-! ## What a turn does -/

variable {m : Method} {r : m.Reply} {k : Nat} {g g' : Plain Q}

theorem emptied_rx (h : g.inFlight = none) : g.emptied = { g with rx := .empty } := by
  unfold emptied
  rw [h]
  rfl

/-- What is dropped is acknowledged. -/
theorem size_emptied (g : Plain Q) : g.emptied.rx.size + g.owed = g.rx.size := by
  unfold emptied owed
  split
  · rfl
  · exact Nat.zero_add _

@[simp] theorem emptied_rxShut (g : Plain Q) : g.emptied.rxShut = g.rxShut := by
  unfold emptied
  split <;> rfl

@[simp] theorem emptied_inFlight (g : Plain Q) : g.emptied.inFlight = g.inFlight := by
  unfold emptied
  split <;> rfl

/-- How much of what a layer holds a verdict accepts. -/
def accepted (g : Plain Q) : Method → Nat
  | .settled (.ok _) => g.inFlight.getD 0
  | _ => 0

/-- **All data is accounted for**: it is held, was accepted, or is acknowledged. -/
theorem Turn.balance (h : g.Turn m r k g') (hfit : ∀ n, g.inFlight = some n → n ≤ g.rx.size) :
    g.rx.size + m.arrived.length = g'.rx.size + g.accepted m + k := by
  cases h with
  | arrived data r =>
    have hsize := size_emptied { g with rx := g.rx.push data }
    rw [Segments.size_push] at hsize
    show g.rx.size + data.length = _ + 0 + _
    omega
  | ended r =>
    have hsize : _ + owed { g with finPending := true } = g.rx.size := size_emptied { g with finPending := true }
    show g.rx.size + 0 = _ + 0 + owed { g with finPending := true }
    omega
  | polled | deafened =>
    have hsize := size_emptied g
    show g.rx.size + 0 = _ + 0 + _
    omega
  | @accepted n hi =>
    have hn := hfit n hi
    show g.rx.size + 0 = 0 + g.inFlight.getD 0 + (g.rx.size - n)
    rw [hi, Option.getD_some]
    omega
  | refused hi f => rfl
  | idle ho hv =>
    have hbrought : m.arrived = [] := by
      unfold Method.arrived
      split
      · cases ho
      · rfl
    have haccepted : g.accepted m = 0 := by
      unfold Plain.accepted
      split
      · rw [hv _ rfl]
        rfl
      · rfl
    rw [hbrought, haccepted]
    rfl

theorem Turn.rxShut (h : g.Turn m r k g') : g'.rxShut = g.rxShut := by
  cases h <;> simp

/-- While a verdict is out, nothing is acknowledged. -/
theorem Turn.awaiting (h : g.Turn m r k g') (hi : g.inFlight.isSome = true) (hv : ∀ v, m ≠ .settled v) :
    g'.inFlight = g.inFlight ∧ k = 0 := by
  cases h with
  | accepted | refused => exact absurd rfl (hv _)
  | arrived | ended | polled | deafened => exact ⟨emptied_inFlight _, if_pos hi⟩
  | idle => exact ⟨rfl, rfl⟩

/-- With no verdict out, what is held is dropped as soon as the layer looks after it. -/
theorem Turn.looks (h : g.Turn m r k g') (hi : g.inFlight = none) (ho : offers m r = true) :
    g'.inFlight = none ∧ g'.rx = .empty := by
  cases h with
  | accepted hi' | refused hi' => rw [hi] at hi'; cases hi'
  | arrived | ended | polled | deafened => exact ⟨(emptied_inFlight _).trans hi, by rw [emptied_rx (by exact hi)]⟩
  | idle ho' => rw [ho] at ho'; cases ho'

/-- And not before. -/
theorem Turn.overlooks (h : g.Turn m r k g') (hi : g.inFlight = none) (ho : offers m r = false) : g' = g ∧ k = 0 := by
  cases h with
  | accepted hi' | refused hi' => rw [hi] at hi'; cases hi'
  | arrived | ended | polled | deafened => cases ho
  | idle => exact ⟨rfl, rfl⟩

/-- A verdict on what is out. -/
theorem Turn.settled {v : Outcome} {r : Unit} (h : g.Turn (.settled v) r k g') (hi : g.inFlight.isSome = true) :
    g'.inFlight = none ∧ (v = .ok () → g'.rx = .empty) ∧ (v ≠ .ok () → k = 0) := by
  cases h with
  | accepted => exact ⟨rfl, fun _ => rfl, fun hne => absurd rfl hne⟩
  | refused => exact ⟨rfl, nofun, fun _ => rfl⟩
  | idle _ hv =>
    rw [hv v rfl] at hi
    cases hi

theorem accepted_of_none (hi : g.inFlight = none) (m : Method) : g.accepted m = 0 := by
  unfold accepted
  split
  · rw [hi]
    rfl
  · rfl

theorem accepted_of_ne (hv : ∀ v, m ≠ .settled (.ok v)) : g.accepted m = 0 := by
  unfold accepted
  split
  · exact absurd rfl (hv _)
  · rfl

/-! ## Layers as they come about -/

/-- A method call of a plain layer. -/
structure Call (H : Host) where
  before : Plain H.Pcb
  method : Method
  reply : method.Reply
  trace : Trace H
  after : Plain H.Pcb

/-- The calls of a layer that began as `l₀`, whatever its endpoint answered. A layer that has asked to be freed is not
called again. -/
inductive Past (me : Handle) (l₀ : Plain H.Pcb) : List (Call H) → Plain H.Pcb → Prop
  | start : Past me l₀ [] l₀
  | call {h : List (Call H)} {l l' : Plain H.Pcb} {m : Method} {r : m.Reply} {t : Trace H} (hl : Past me l₀ h l)
      (hf : ∀ c ∈ h, Tls.frees c.trace = false) (hy : (step me m l).Yields t (r, l')) : Past me l₀ (h ++ [⟨l, m, r, t, l'⟩]) l'

/-- A call after which the layer is gone. -/
def Call.quits (c : Call H) : Bool :=
  match c.method with
  | .op .abort | .dealloc => true
  | _ => Tls.frees c.trace

theorem Call.stays {c : Call H} (h : c.quits = false) :
    Tls.frees c.trace = false ∧ c.method ≠ .op .abort ∧ c.method ≠ .dealloc := by
  unfold Call.quits at h
  split at h
  · cases h
  · cases h
  · rename_i ha hd
    exact ⟨h, ha, hd⟩

/-- What is known of a layer over the endpoint `p`. -/
structure Sound (p : PcbRef H.Pcb) (l : Plain H.Pcb) : Prop where
  pcb : l.pcb = some p
  flows : ∃ out, l.Flows (fun _ => True) out

theorem Sound.fits (h : l.Sound p) {n : Nat} (hn : l.inFlight = some n) : n ≤ l.rx.size := by
  obtain ⟨out, hf⟩ := h.flows
  rcases hf.flight with ⟨-, hnone⟩ | ⟨d, -, -, hi, hprefix⟩
  · rw [hn] at hnone
    cases hnone
  · cases hn.symm.trans hi
    rw [hf.rx.size_eq]
    exact hprefix.length_le

theorem Sound.wellFormed (h : l.Sound p) : l.rx.WellFormed := by
  obtain ⟨out, hf⟩ := h.flows
  exact hf.rx

theorem emits_offer_pcb {new : Tls.Layer H.Source H.Engine → Prop} {flag : Bool} {out : List Bytes} :
    Emits new (offer me) l flag out fun _ l' _ _ => l'.pcb = l.pcb := by
  unfold offer
  simp only [emits_bind, emits_get]
  split
  · rfl
  · split
    · split
      · simp only [emits_bind, emits_set]
        exact emits_withPcb fun _ => (emits_note _).2 rfl
      · rfl
    · split
      · simp only [emits_bind, emits_set, emits_emit]
      · split
        · simp only [emits_bind, emits_set, emits_emit]
        · rfl

/-- A layer keeps its endpoint, unless it gives the connection up. -/
theorem emits_step_pcb {new : Tls.Layer H.Source H.Engine → Prop} (ha : m ≠ .op .abort) (hd : m ≠ .dealloc) :
    Emits new (step me m) l false [] fun _ l' flag _ => flag = false → l'.pcb = l.pcb := by
  have hoffer : ∀ l₁ : Plain H.Pcb, l₁.pcb = l.pcb → ∀ out : List Bytes,
      Emits new (offer me) l₁ false out fun _ l' flag _ => flag = false → l'.pcb = l.pcb :=
    fun l₁ h out => emits_offer_pcb.mono fun _ _ _ _ h' _ => h'.trans h
  have hclose : Emits new (close me) l false [] fun _ l' flag _ => flag = false → l'.pcb = l.pcb := by
    unfold close
    simp only [emits_bind, emits_get]
    split
    · simp only [emits_bind, emits_release]
      rintro ⟨⟩
    · simp only [emits_bind, emits_pcb]
      intro _ x
      cases x with
      | ok _ =>
        simp only [emits_bind, emits_modify, emits_release]
        rintro ⟨⟩
      | error f =>
        simp only [emits_bind, emits_pcb, emits_pollInterval, emits_note]
        exact fun _ _ _ _ => rfl
  cases m with
  | dealloc => exact absurd rfl hd
  | settled v =>
    show Emits new (settle me v) l false [] _
    unfold settle
    simp only [emits_bind, emits_get]
    split
    · exact fun _ => rfl
    · simp only [emits_bind, emits_modify]
      cases v with
      | ok _ =>
        simp only [emits_bind, emits_modify]
        exact hoffer _ (by rfl) _
      | error f => exact (emits_note _).2 fun _ => rfl
  | op o =>
    cases o with
    | abort => exact absurd rfl ha
    | lower e =>
      refine (Layer.Act.emits_bind _ _).2 ?_
      cases e with
      | recv | eof =>
        unfold lower
        simp only [emits_bind, emits_get, emits_note, emits_modify]
        exact hoffer _ (by rfl) _
      | poll =>
        unfold lower
        simp only [emits_bind]
        exact (hoffer l rfl []).mono fun _ _ _ _ h => h
      | error reason =>
        unfold lower
        simp only [emits_bind, emits_note, emits_modify, emits_fail]
        rintro ⟨⟩
      | accept | connected | sent => exact fun _ => rfl
    | close => exact hclose
    | shutdown dir =>
      show Emits new (shutdown me dir) l false [] _
      unfold shutdown
      split
      · exact hclose
      · simp only [emits_bind]
        refine emits_withPcb fun x => ?_
        cases x with
        | error f => exact fun _ => rfl
        | ok _ =>
          dsimp only
          split
          · simp only [emits_bind, emits_modify]
            exact hoffer _ (by rfl) _
          · exact fun _ => rfl
    | _ => exact emits_withPcb fun _ _ => rfl

/-- A call leaves a layer sound, unless the layer is gone. -/
theorem Sound.called (h : l.Sound p) {t : Trace H} (hy : (step me m l).Yields t (r, l')) (hf : Tls.frees t = false)
    (ha : m ≠ .op .abort) (hd : m ≠ .dealloc) : l'.Sound p := by
  obtain ⟨out, hflows⟩ := h.flows
  have hkept : Emits (fun _ => True) (step me m) l false [] fun _ l' flag _ => flag = false → l'.pcb = l.pcb :=
    emits_step_pcb ha hd
  have hpcb := Program.Emits.of_yields hy hkept
  rw [hf] at hpcb
  refine ⟨(hpcb rfl).trans h.pcb, ?_⟩
  by_cases hs : ∃ v, m = .settled v
  · obtain ⟨v, rfl⟩ := hs
    rcases hflows.flight with ⟨-, hnone⟩ | ⟨d, rfl, -, -, -⟩
    · -- there was nothing to settle
      have hidle : Ran (settle me v) l fun _ _ l' => l' = l := by
        unfold settle
        simp only [ran_bind, ran_get, hnone, ran_pure]
      obtain rfl := hidle t r l' hy
      exact h.flows
    · have hsettles : Emits (fun _ => True) (step me (.settled v)) l false [] fun _ l' flag out =>
          flag = false ∧ l'.Flows (fun _ => True) out := settle_flows hflows fun _ _ => trivial
      exact ⟨_, (Program.Emits.of_yields hy hsettles).2⟩
  · have hsteps : Emits (fun _ => True) (step me m) l false out fun _ l' flag out => l'.Keeps (fun _ => True) flag out :=
      step_flows hflows ha hd fun v hv => hs ⟨v, hv⟩
    have hkeeps := Program.Emits.of_yields hy hsteps
    rw [hf] at hkeeps
    exact ⟨_, hkeeps rfl⟩

variable {h past future : List (Call H)} {c d : Call H}

/-- The last of some calls. -/
theorem Past.last (hl : Past me l₀ (h ++ [c]) l) :
    Past me l₀ h c.before ∧ (step me c.method c.before).Yields c.trace (c.reply, c.after) ∧ c.after = l := by
  generalize hh : h ++ [c] = all at hl
  cases hl with
  | start => simp at hh
  | call hl hf hy =>
    obtain ⟨rfl, hc⟩ := List.append_inj' hh rfl
    cases hc
    exact ⟨hl, hy, rfl⟩

/-- The calls that some methods lead to, when every request is answered as fixed beforehand, and the layer that they
leave. -/
def played (me : Handle) (answer : (r : Req H) → r.Ans) : List Method → Plain H.Pcb → List (Call H) × Plain H.Pcb
  | [], l => ([], l)
  | m :: ms, l =>
    let r := Program.play (I := io H) answer (step me m l)
    let (h, l') := played me answer ms r.2.2
    (⟨l, m, r.2.1, r.1, r.2.2⟩ :: h, l')

theorem Past.of_played {answer : (r : Req H) → r.Ans} {ms : List Method} (hl : Past me l₀ h l)
    (hh : ∀ c ∈ h, Tls.frees c.trace = false) (hf : ∀ c ∈ (played me answer ms l).1, Tls.frees c.trace = false) :
    Past me l₀ (h ++ (played me answer ms l).1) (played me answer ms l).2 := by
  induction ms generalizing h l with
  | nil =>
    rw [played, List.append_nil]
    exact hl
  | cons m ms ih =>
    have hcall := hl.call hh (Program.play_yields answer (step me m l))
    rw [played, List.forall_mem_cons] at hf
    have hrest := ih hcall (fun c hc => ?_) hf.2
    · rw [List.append_assoc] at hrest
      exact hrest
    · rcases List.mem_append.1 hc with hc | hc
      · exact hh c hc
      · rw [List.mem_singleton.1 hc]
        exact hf.1

/-- **A layer that is not gone is sound.** -/
theorem Past.sound (hl : Past me (ofPcb p) h l) (hstays : ∀ c ∈ h, c.quits = false) : l.Sound p := by
  induction hl with
  | start => exact ⟨rfl, [], ofPcb_flows p⟩
  | call hl hf hy ih =>
    rw [List.forall_mem_append] at hstays
    obtain ⟨hfrees, ha, hd⟩ := Call.stays (hstays.2 _ (List.mem_singleton.2 rfl))
    exact (ih hstays.1).called hy hfrees ha hd

/-! ## What becomes of what is held -/

/-- The read half is shut. -/
def Call.deafens : Call H → Bool
  | ⟨_, .op (.shutdown .read), .ok _, _, _⟩ => true
  | _ => false

/-- How it stands with what a layer held when it was read no more. -/
inductive Standing
  /-- The verdict on some of it is out. -/
  | awaiting
  /-- The verdict was a refusal, and the layer has not looked after it since. -/
  | refused
  | drained
  deriving DecidableEq

/-- How it stands after a call. -/
def Standing.after : Standing → Call H → Standing
  | .awaiting, c =>
    match c.method with
    | .settled (.ok _) => .drained
    | .settled (.error _) => .refused
    | _ => .awaiting
  | .refused, c => if offers c.method c.reply then .drained else .refused
  | .drained, _ => .drained

/-- How it stands after the calls `future`, where the read half was shut by `c`. -/
def standing (c : Call H) (future : List (Call H)) : Standing :=
  future.foldl Standing.after (if c.before.inFlight.isSome then .awaiting else .drained)

/-- How much data some calls bring. -/
def brought (h : List (Call H)) : Nat := (h.map fun c => c.method.arrived.length).sum

/-- How much of it the application accepts by them. -/
def taken (h : List (Call H)) : Nat := (h.map fun c => c.before.accepted c.method).sum

/-- How much of it the layer acknowledges in them of its own accord. -/
def dropped (h : List (Call H)) : Nat := (h.map fun c => spent c.method c.trace).sum

theorem standing_append (c : Call H) (future : List (Call H)) (d : Call H) :
    standing c (future ++ [d]) = (standing c future).after d := by
  unfold standing
  rw [List.foldl_append]
  rfl

theorem brought_append : brought (h ++ [d]) = brought h + d.method.arrived.length := by simp [brought]

theorem taken_append : taken (h ++ [d]) = taken h + d.before.accepted d.method := by simp [taken]

theorem dropped_append : dropped (h ++ [d]) = dropped h + spent d.method d.trace := by simp [dropped]

/-- What a standing says of a layer, of whose data `n` bytes were accepted or acknowledged by then. -/
def Standing.Says (g : Plain Q) (n : Nat) : Standing → Prop
  | .awaiting => g.inFlight.isSome = true ∧ n = 0
  | .refused => g.inFlight = none ∧ n = 0
  | .drained => g.inFlight = none ∧ g.rx = .empty

theorem Standing.Says.called {s : Standing} {n : Nat} {m : Method} {r : m.Reply} {t : Trace H} (h : s.Says l n)
    (ht : l.Turn m r k l') : (s.after ⟨l, m, r, t, l'⟩).Says l' (n + l.accepted m + k) := by
  cases s with
  | awaiting =>
    obtain ⟨hi, rfl⟩ := h
    have hother : (∀ v, m ≠ .settled v) → l'.inFlight.isSome = true ∧ 0 + l.accepted m + k = 0 := by
      intro hv
      obtain ⟨hflight, rfl⟩ := ht.awaiting hi hv
      rw [hflight, accepted_of_ne fun v => hv _]
      exact ⟨hi, rfl⟩
    cases m with
    | settled v =>
      obtain ⟨hnone, hok, herror⟩ := ht.settled hi
      cases v with
      | ok _ => exact ⟨hnone, hok rfl⟩
      | error f =>
        have hk : k = 0 := herror nofun
        rw [hk]
        exact ⟨hnone, rfl⟩
    | op o => exact hother nofun
    | dealloc => exact hother nofun
  | refused =>
    obtain ⟨hi, rfl⟩ := h
    unfold Standing.after
    dsimp only
    split
    · rename_i ho
      exact ht.looks hi ho
    · rename_i ho
      obtain ⟨rfl, rfl⟩ := ht.overlooks hi (by simpa using ho)
      exact ⟨hi, by rw [accepted_of_none hi]⟩
  | drained =>
    obtain ⟨hi, hrx⟩ := h
    cases ho : offers m r with
    | true => exact ht.looks hi ho
    | false =>
      obtain ⟨rfl, -⟩ := ht.overlooks hi ho
      exact ⟨hi, hrx⟩

/-- What is known of a layer whose read half was shut by `c`. -/
structure Deaf (c : Call H) (future : List (Call H)) (l : Plain H.Pcb) : Prop where
  shut : l.rxShut = true
  /-- Neither data nor the end of the stream is handed up. -/
  mute : ∀ d ∈ c :: future, Mute d.trace
  /-- Whatever was held, or has come in since, is held, was accepted, or was acknowledged. -/
  balance : c.before.rx.size + brought future = l.rx.size + taken future + dropped (c :: future)
  stands : (standing c future).Says l (taken future + dropped (c :: future))

/-- The call that shuts the read half. -/
theorem deaf_deafened (hs : c.before.Sound p) (hc : c.deafens = true)
    (hy : (step me c.method c.before).Yields c.trace (c.reply, c.after)) : Deaf c [] c.after := by
  obtain ⟨l, m, r, t, l'⟩ := c
  unfold Call.deafens at hc
  split at hc
  · rename_i hcall
    cases hcall
    replace hs : Sound p l := hs
    obtain ⟨hmute, hdone, -⟩ := deafen_ran hs.wellFormed hs.pcb _ _ _ hy
    obtain ⟨hacked, hafter⟩ := hdone rfl
    replace hafter : l' = emptied { l with rxShut := true } := hafter
    have hspent : dropped [(⟨l, .op (.shutdown .read), .ok (), t, l'⟩ : Call H)] = l.owed := by
      show acknowledged t + 0 = _
      exact hacked
    refine ⟨?_, by simpa using hmute, ?_, ?_⟩
    · show l'.rxShut = true
      rw [hafter, emptied_rxShut]
    · have hsize : _ + l.owed = l.rx.size := size_emptied { l with rxShut := true }
      rw [hspent]
      show l.rx.size + 0 = l'.rx.size + 0 + l.owed
      rw [hafter]
      omega
    · rw [hspent]
      show Standing.Says l' (0 + l.owed) (if l.inFlight.isSome then .awaiting else .drained)
      rw [hafter]
      split
      · rename_i hi
        exact ⟨(emptied_inFlight _).symm ▸ hi, by rw [owed, if_pos hi]⟩
      · rename_i hi
        have hnone : l.inFlight = none := by simpa using hi
        exact ⟨(emptied_inFlight _).trans hnone, by rw [emptied_rx (by exact hnone)]⟩
  · cases hc

/-- Another call. -/
theorem Deaf.called (h : Deaf c future d.before) (hm : Mute d.trace)
    (ht : d.before.Turn d.method d.reply (spent d.method d.trace) d.after) (hs : d.before.Sound p) :
    Deaf c (future ++ [d]) d.after := by
  have hdropped : dropped (c :: (future ++ [d])) = dropped (c :: future) + spent d.method d.trace :=
    dropped_append (h := c :: future)
  refine ⟨ht.rxShut.trans h.shut, ?_, ?_, ?_⟩
  · rw [← List.cons_append, List.forall_mem_append]
    exact ⟨h.mute, by simpa using hm⟩
  · have hbalance := ht.balance fun n hn => hs.fits hn
    have hbefore := h.balance
    rw [brought_append, taken_append, hdropped]
    omega
  · have hsays := h.stands.called (t := d.trace) ht
    have hsum : taken (future ++ [d]) + dropped (c :: (future ++ [d])) =
        taken future + dropped (c :: future) + d.before.accepted d.method + spent d.method d.trace := by
      rw [taken_append, hdropped]
      omega
    rw [standing_append, hsum]
    exact hsays

/-- **A layer whose read half is shut is deaf.** -/
theorem Past.deaf (hl : Past me (ofPcb p) (past ++ c :: future) l) (hstays : ∀ d ∈ past ++ c :: future, d.quits = false)
    (hc : c.deafens = true) : Deaf c future l := by
  induction future using List.reverseRecOn generalizing l with
  | nil =>
    obtain ⟨hbefore, hy, rfl⟩ := hl.last
    have hsound : c.before.Sound p := hbefore.sound fun d hd => hstays d (List.mem_append_left _ hd)
    exact deaf_deafened hsound hc hy
  | append_singleton future d ih =>
    rw [← List.cons_append, ← List.append_assoc] at hl hstays
    rw [List.forall_mem_append] at hstays
    obtain ⟨hbefore, hy, rfl⟩ := hl.last
    obtain ⟨hf, ha, hd⟩ := Call.stays (hstays.2 d (List.mem_singleton.2 rfl))
    have hsound : d.before.Sound p := hbefore.sound hstays.1
    have hdeaf := ih hbefore hstays.1
    obtain ⟨hmute, hturn⟩ := step_turns hsound.wellFormed hdeaf.shut hsound.pcb ha hd _ _ _ hy hf
    exact hdeaf.called hmute hturn hsound

/-- **What a layer holds when it is read no more is accepted, or acknowledged once.** Whatever a layer over an endpoint is
called with before and after its read half is shut, by whomever, and whatever the endpoint answers: from then on it hands
up neither data nor the end of the stream, and of what it held or is brought each byte is accepted by the application,
acknowledged once, or still held. None is held any more if no verdict was out, or the verdict was an acceptance. After a
refusal all is held, and none of it acknowledged, until the layer is called for the next event; then none is held. -/
theorem Past.shutdown_drains (hl : Past me (ofPcb p) (past ++ c :: future) l)
    (hstays : ∀ d ∈ past ++ c :: future, d.quits = false) (hc : c.deafens = true) :
    (∀ d ∈ c :: future, Mute d.trace) ∧
    c.before.rx.size + brought future = l.rx.size + taken future + dropped (c :: future) ∧
    match standing c future with
    | .awaiting => l.inFlight.isSome = true ∧ taken future = 0 ∧ dropped (c :: future) = 0
    | .refused => l.inFlight = none ∧ taken future = 0 ∧ dropped (c :: future) = 0
    | .drained => l.inFlight = none ∧ l.rx.toList = [] := by
  obtain ⟨-, hmute, hbalance, hstands⟩ := hl.deaf hstays hc
  refine ⟨hmute, hbalance, ?_⟩
  revert hstands
  cases standing c future with
  | awaiting | refused =>
    rintro ⟨hi, hsum⟩
    exact ⟨hi, by omega, by omega⟩
  | drained =>
    rintro ⟨hi, hrx⟩
    exact ⟨hi, by rw [hrx]; rfl⟩

/-! Data comes in, and more while the verdict on it is out; then the read half is shut, and the data is refused. -/

/-- A layer over an endpoint that grants everything. -/
def Toy.listener : Plain Tls.Toy.host.Pcb := ofPcb (.external ())

/-- What it is called with. -/
def Toy.refusal : List Method :=
  [.op (.lower (.recv [97, 98, 99])), .op (.lower (.recv [100])), .op (.shutdown .read), .settled (.error .wouldBlock)]

/-- The calls, and the layer that they leave. -/
def Toy.called (ms : List Method) : List (Call Tls.Toy.host) × Plain Tls.Toy.host.Pcb :=
  played Tls.Toy.me Tls.Toy.obliging ms Toy.listener

theorem Toy.called_past (ms : List Method) (hf : ∀ c ∈ (Toy.called ms).1, Tls.frees c.trace = false) :
    Past Tls.Toy.me Toy.listener (Toy.called ms).1 (Toy.called ms).2 := by
  have hpast : Past Tls.Toy.me Toy.listener ([] ++ (Toy.called ms).1) (Toy.called ms).2 :=
    Past.of_played .start (by simp) hf
  rwa [List.nil_append] at hpast

/-- When the layer is polled, the data is dropped. -/
theorem Past.shutdown_drains_polled : ∃ past c future l,
    Past (H := Tls.Toy.host) Tls.Toy.me (ofPcb (.external ())) (past ++ c :: future) l ∧ c.deafens = true ∧
      c.before.inFlight = some 3 ∧ c.before.rx.size = 4 ∧ (∀ d ∈ c :: future, Mute d.trace) ∧
      dropped (c :: future) = 4 ∧ l.rx.toList = [] := by
  have hpast := Toy.called_past (Toy.refusal ++ [.op (.lower .poll)]) (by decide +kernel)
  have hseen : (Toy.called (Toy.refusal ++ [.op (.lower .poll)])).1.map (fun c =>
      (c.quits, c.deafens, c.before.inFlight, c.before.rx.size, spent c.method c.trace)) =
        [(false, false, none, 0, 0), (false, false, some 3, 3, 0), (false, true, some 3, 4, 0), (false, false, some 3, 4, 0),
          (false, false, none, 4, 4)] := by decide +kernel
  obtain ⟨x, y, c, d, z, heq, hstands⟩ : ∃ x y c d z, (Toy.called (Toy.refusal ++ [.op (.lower .poll)])).1 = [x, y, c, d, z] ∧
      standing c [d, z] = .drained := ⟨_, _, _, _, _, rfl, by decide +kernel⟩
  rw [heq] at hpast hseen
  simp only [List.map_cons, List.map_nil, List.cons.injEq, Prod.mk.injEq, and_true] at hseen
  obtain ⟨hx, hy, hc, hd, hz⟩ := hseen
  obtain ⟨hmute, -, hdrained⟩ := Past.shutdown_drains (by exact hpast : Past _ _ ([x, y] ++ c :: [d, z]) _) (by simp [hx, hy, hc, hd, hz]) hc.2.1
  rw [hstands] at hdrained
  refine ⟨[x, y], c, [d, z], _, hpast, hc.2.1, hc.2.2.1, hc.2.2.2.1, hmute, ?_, hdrained.2⟩
  simp [dropped, hc, hd, hz]

/-- Until then it stays, and is not acknowledged, although nobody will read it. -/
theorem Past.shutdown_keeps : ∃ past c d l,
    Past (H := Tls.Toy.host) Tls.Toy.me (ofPcb (.external ())) (past ++ [c, d]) l ∧
      (∀ x ∈ past ++ [c, d], x.quits = false) ∧ c.deafens = true ∧ c.before.inFlight = some 3 ∧
      d.method = .settled (.error .wouldBlock) ∧ l.inFlight = none ∧ l.rx.toList = [97, 98, 99, 100] ∧
      dropped [c, d] = 0 := by
  have hpast := Toy.called_past Toy.refusal (by decide +kernel)
  have hleft : (Toy.called Toy.refusal).2.inFlight = none ∧ (Toy.called Toy.refusal).2.rx.toList = [97, 98, 99, 100] := by
    decide +kernel
  have hseen : (Toy.called Toy.refusal).1.map (fun c => (c.quits, c.deafens, c.before.inFlight, spent c.method c.trace)) =
      [(false, false, none, 0), (false, false, some 3, 0), (false, true, some 3, 0), (false, false, some 3, 0)] := by
    decide +kernel
  obtain ⟨x, y, c, d, heq, hm⟩ : ∃ x y c d, (Toy.called Toy.refusal).1 = [x, y, c, d] ∧
      d.method = .settled (.error .wouldBlock) := ⟨_, _, _, _, rfl, rfl⟩
  rw [heq] at hpast hseen
  simp only [List.map_cons, List.map_nil, List.cons.injEq, Prod.mk.injEq, and_true] at hseen
  obtain ⟨hx, hy, hc, hd⟩ := hseen
  refine ⟨[x, y], c, d, _, hpast, by simp [hx, hy, hc, hd], hc.2.1, hc.2.2.1, hm, hleft.1, hleft.2, ?_⟩
  simp [dropped, hc, hd]

end Plain

end Conduit
