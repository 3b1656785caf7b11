import Conduit.Proofs.Tls.Turns

/-!
# The life of a TLS layer

A layer is called, one method after the other, in any order and with any answers to what it asks.

* `Call`, `Life`: a method call, and the calls that a layer has had.
* `arrived`, `acked`, `outgoing`: the ciphertext that came in, how much was acknowledged below, and what was sent.
* `Life.keeps`: what every turn keeps, a life keeps.
* `Life.append`, `Life.amid`, `Life.split`: lives are put together, and taken apart.
* `played`, `Life.of_played`: lives with all answers fixed beforehand.
-/

namespace Conduit

open Layer

/-- The ciphertext that a method brings. -/
def Method.arrived : Method → Bytes
  | .op (.lower (.recv data)) => data
  | _ => []

namespace Tls

variable {H : Host}

/-- A method call of a layer. -/
structure Call (H : Host) where
  before : Layer H.Source H.Engine
  method : Method
  reply : method.Reply
  trace : Trace H
  after : Layer H.Source H.Engine

/-- The ciphertext that some calls bring. -/
def arrived (h : List (Call H)) : Bytes := h.flatMap (·.method.arrived)

@[simp] theorem arrived_nil : arrived ([] : List (Call H)) = [] := rfl

@[simp] theorem arrived_append (h h' : List (Call H)) : arrived (h ++ h') = arrived h ++ arrived h' := by
  simp [arrived]

@[simp] theorem arrived_singleton (c : Call H) : arrived [c] = c.method.arrived := by simp [arrived]

/-- Whether a layer asks to be freed. -/
def frees (t : Trace H) : Bool := t.any fun x =>
  match x.req with
  | .release | .fail _ => true
  | _ => false

/-- The calls of a layer over `b` that began as `l₀`. A layer that has asked to be freed is not called again. -/
inductive Life (ops : EngineOps H.Engine H.Shared) (b me : Handle) (l₀ : Layer H.Source H.Engine) :
    List (Call H) → Layer H.Source H.Engine → Prop
  | start : Life ops b me l₀ [] l₀
  | call {h : List (Call H)} {l l' : Layer H.Source H.Engine} {m : Method} {r : m.Reply} {t : Trace H}
      (hl : Life ops b me l₀ h l) (hf : ∀ c ∈ h, frees c.trace = false)
      (hy : (Secure.step ops me m l).Yields t (r, l')) (hb : Over b t) : Life ops b me l₀ (h ++ [⟨l, m, r, t, l'⟩]) l'

variable {ops : EngineOps H.Engine H.Shared} {b me : Handle} {l₀ l : Layer H.Source H.Engine}

/-- The turn that a call is. -/
theorem Call.turns {m : Method} {r : m.Reply} {t : Trace H} {l' : Layer H.Source H.Engine}
    (hy : (Secure.step ops me m l).Yields t (r, l')) (hb : Over b t) (hl : l.Sound) (hm : m.leaves = false) :
    Turns ops b m l (deeds t) l' :=
  step_does hm hl (fun _ _ _ ht => ht) t r l' hy hb

/-- **What every turn keeps, a life keeps**, as long as no call ends the connection. -/
theorem Life.keeps {P : List (Call H) → Layer H.Source H.Engine → Prop} {Q : Call H → Prop} {h : List (Call H)}
    (hl : Life ops b me l₀ h l) (h₀ : P [] l₀) (hs₀ : l₀.Sound) (hm : ∀ c ∈ h, c.method.leaves = false)
    (hq : ∀ c ∈ h, Q c)
    (hstep : ∀ h c, P h c.before → c.before.Sound → Q c → Turns ops b c.method c.before (deeds c.trace) c.after →
      (∀ c ∈ h, frees c.trace = false) → P (h ++ [c]) c.after) : P h l ∧ l.Sound := by
  induction hl with
  | start => exact ⟨h₀, hs₀⟩
  | @call h l l' m r t hl hf hy hb ih =>
    obtain ⟨hp, hs⟩ := ih (fun c hc => hm c (by simp [hc])) (fun c hc => hq c (by simp [hc]))
    have ht := Call.turns hy hb hs (hm ⟨l, m, r, t, l'⟩ (by simp))
    exact ⟨hstep h ⟨l, m, r, t, l'⟩ hp hs (hq ⟨l, m, r, t, l'⟩ (by simp)) ht hf, ht.sound hs⟩

/-- A life may go on as another. -/
theorem Life.append {h h' : List (Call H)} {l₁ : Layer H.Source H.Engine} (hl : Life ops b me l₀ h l₁)
    (hf : ∀ c ∈ h, frees c.trace = false) (hl' : Life ops b me l₁ h' l) : Life ops b me l₀ (h ++ h') l := by
  induction hl' with
  | start =>
    rw [List.append_nil]
    exact hl
  | call _ hf' hy hb ih =>
    rw [← List.append_assoc]
    refine ih.call (fun c hc => ?_) hy hb
    rcases List.mem_append.1 hc with hc | hc
    · exact hf c hc
    · exact hf' c hc

/-- What there is to say of a call in the middle of a life. -/
structure Call.Amid (ops : EngineOps H.Engine H.Shared) (b me : Handle) (l₀ : Layer H.Source H.Engine)
    (past : List (Call H)) (c : Call H) (future : List (Call H)) (l : Layer H.Source H.Engine) : Prop where
  before : Life ops b me l₀ past c.before
  stays : ∀ d ∈ past, frees d.trace = false
  yields : (Secure.step ops me c.method c.before).Yields c.trace (c.reply, c.after)
  around : Over b c.trace
  after : Life ops b me c.after future l

/-- A life is taken apart at any of its calls. -/
theorem Life.amid {past future : List (Call H)} {c : Call H} (hl : Life ops b me l₀ (past ++ c :: future) l) :
    c.Amid ops b me l₀ past future l := by
  generalize hh : past ++ c :: future = h at hl
  induction hl generalizing future with
  | start => simp at hh
  | @call h l l' m r t hl hf hy hb ih =>
    rcases List.eq_nil_or_concat future with rfl | ⟨future', x, rfl⟩
    · obtain ⟨rfl, hx⟩ := List.append_inj' hh rfl
      cases hx
      exact ⟨hl, hf, hy, hb, .start⟩
    · rw [List.concat_eq_append, ← List.cons_append, ← List.append_assoc] at hh
      obtain ⟨rfl, hx⟩ := List.append_inj' hh rfl
      cases hx
      have hc := ih rfl
      refine ⟨hc.before, hc.stays, hc.yields, hc.around, ?_⟩
      rw [List.concat_eq_append]
      exact hc.after.call (fun d hd => hf d (by simp [hd])) hy hb

/-- A life is taken apart between its calls. -/
theorem Life.split {past future : List (Call H)} (hl : Life ops b me l₀ (past ++ future) l) :
    ∃ l₁, Life ops b me l₀ past l₁ ∧ Life ops b me l₁ future l := by
  generalize hh : past ++ future = h at hl
  induction hl generalizing future with
  | start =>
    obtain ⟨rfl, rfl⟩ := List.append_eq_nil_iff.1 hh
    exact ⟨l₀, .start, .start⟩
  | @call h l l' m r t hl hf hy hb ih =>
    rcases List.eq_nil_or_concat future with rfl | ⟨future', x, rfl⟩
    · rw [List.append_nil] at hh
      exact ⟨l', hh ▸ hl.call hf hy hb, .start⟩
    · rw [List.concat_eq_append, ← List.append_assoc] at hh
      obtain ⟨rfl, hx⟩ := List.append_inj' hh rfl
      cases hx
      obtain ⟨l₁, hp, hfuture⟩ := ih rfl
      refine ⟨l₁, hp, ?_⟩
      rw [List.concat_eq_append]
      exact hfuture.call (fun d hd => hf d (by simp [hd])) hy hb

/-! ## Lives played against fixed answers -/

/-- The calls that some methods lead to, when every request is answered as fixed beforehand, and the layer that they
leave. -/
def played (ops : EngineOps H.Engine H.Shared) (me : Handle) (answer : (r : Req H) → r.Ans) :
    List Method → Layer H.Source H.Engine → List (Call H) × Layer H.Source H.Engine
  | [], l => ([], l)
  | m :: ms, l =>
    let r := Program.play (I := io H) answer (Secure.step ops me m l)
    let (h, l') := played ops me answer ms r.2.2
    (⟨l, m, r.2.1, r.1, r.2.2⟩ :: h, l')

theorem Life.of_played {answer : (r : Req H) → r.Ans} (hb : answer .inner = some b) {ms : List Method}
    {h : List (Call H)} (hl : Life ops b me l₀ h l) (hh : ∀ c ∈ h, frees c.trace = false)
    (hf : ∀ c ∈ (played ops me answer ms l).1, frees c.trace = false) :
    Life ops b me l₀ (h ++ (played ops me answer ms l).1) (played ops me answer ms l).2 := by
  induction ms generalizing h l with
  | nil =>
    rw [played, List.append_nil]
    exact hl
  | cons m ms ih =>
    have hover : Over b (Program.play (I := io H) answer (Secure.step ops me m l)).1 := fun x hx =>
      (Program.mem_play hx).trans hb
    have hcall := hl.call hh (Program.play_yields answer (Secure.step ops me m l)) hover
    rw [played, List.forall_mem_cons] at hf
    have := ih hcall (fun c hc => ?_) hf.2
    · rw [List.append_assoc] at this
      exact this
    · rcases List.mem_append.1 hc with hc | hc
      · exact hh c hc
      · rw [List.mem_singleton.1 hc]
        exact hf.1

/-! ## Acknowledgements -/

/-- How much a request acknowledges to `b`. -/
def ackedBy (b : Handle) : Exchange (io H) → Nat
  | ⟨.ask id (.recved n), _⟩ => if id = b then n else 0
  | _ => 0

/-- How much was acknowledged to `b`. -/
def acked (b : Handle) : Trace H → Nat
  | [] => 0
  | x :: t => ackedBy b x + acked b t

@[simp] theorem acked_nil : acked b ([] : Trace H) = 0 := rfl

@[simp] theorem acked_cons (x : Exchange (io H)) (t : Trace H) : acked b (x :: t) = ackedBy b x + acked b t := rfl

@[simp] theorem acked_append (t u : Trace H) : acked b (t ++ u) = acked b t + acked b u := by
  induction t with
  | nil => simp
  | cons x t ih => rw [List.cons_append, acked_cons, acked_cons, ih, Nat.add_assoc]

/-- Acknowledgements are deeds. -/
theorem acked_deeds (t : Trace H) : acked b (deeds t) = acked b t := by
  refine apply_deeds (acked b) (fun x t u h => by rw [acked_cons, acked_cons, h]) (fun x t hx => ?_) t
  have hnone : ackedBy b x = 0 := by
    unfold ackedBy
    split
    · cases hx
    · rfl
  rw [acked_cons, hnone, Nat.zero_add]

theorem Acks.acked_eq {n : Nat} {u : Trace H} (h : Acks b n u) : acked b u = n := by
  cases h with
  | none => rfl
  | some => simp [ackedBy]

theorem Relays.acked_eq {ps : List Push} {u : Trace H} (h : Relays b ps u) : acked b u = 0 := by
  induction h with
  | nil => rfl
  | cons h _ ih =>
    rw [acked_append, ih]
    cases h <;> simp [ackedBy]

theorem Drops.acked_eq {u : Trace H} (h : Drops b u) : acked b u = 0 := by
  cases h <;> simp [ackedBy]

theorem Idle.acked_eq {x : Exchange (io H)} (h : Idle b x) : ackedBy b x = 0 := by
  cases h with
  | @ask o ho x => cases o <;> first | rfl | cases ho
  | _ => rfl

/-! ## What is sent -/

/-- What a request puts on the connection `b`. -/
def putsOn (b : Handle) : Exchange (io H) → Bytes
  | ⟨.ask id (.write data _), .ok ()⟩ => if id = b then data else []
  | _ => []

/-- All that `b` has accepted. -/
def outgoing (b : Handle) (t : Trace H) : Bytes := t.flatMap (putsOn b)

@[simp] theorem outgoing_nil : outgoing b ([] : Trace H) = [] := rfl

@[simp] theorem outgoing_append (t u : Trace H) : outgoing b (t ++ u) = outgoing b t ++ outgoing b u :=
  List.flatMap_append

@[simp] theorem outgoing_cons (x : Exchange (io H)) (t : Trace H) : outgoing b (x :: t) = putsOn b x ++ outgoing b t :=
  List.flatMap_cons

/-- What an engine has sent is what was written for it. -/
theorem Relays.outgoing_eq {ps : List Push} {u : Trace H} (h : Relays b ps u) : outgoing b u = sent ps := by
  induction h with
  | nil => rfl
  | cons h _ ih =>
    rw [outgoing_append, ih, sent_cons]
    cases h <;> simp [putsOn, Push.accepted]

/-- What is sent is sent by deeds. -/
theorem outgoing_deeds (t : Trace H) : outgoing b (deeds t) = outgoing b t := by
  refine apply_deeds (outgoing b) (fun x t u h => by rw [outgoing_cons, outgoing_cons, h]) (fun x t hx => ?_) t
  have hnone : putsOn b x = [] := by
    unfold putsOn
    split
    · cases hx
    · rfl
  rw [outgoing_cons, hnone, List.nil_append]

end Tls

end Conduit
