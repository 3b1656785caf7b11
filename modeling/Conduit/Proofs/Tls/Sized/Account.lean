import Conduit.Proofs.Tls.Contracts
import Conduit.Proofs.Tls.Sized.Desk
import Mathlib.Data.List.Infix

/-!
# The account of an engine at work

What holds of an engine whatever it has been used for: what it has made was accepted or is queued, what has come in was
taken or is still there, and what was taken are whole records, each handed over when no plaintext was left. Every call
keeps the account and adds to its inputs.

* `Outgoing`, `Incoming`, `Account`: the account, for what is sent and what is taken.
* `Account.sends`, `Account.takes`, `Account.tells`: what one step adds to it.
* `Went`: what a call has added. `Attempt`: what an attempt to take a record means to a call.
* `run_handshake`, `run_decrypt`: the calls that take records.
-/

namespace Conduit.Tls.Sized

/-! ## What an input makes -/

/-- The change that puts records in front of a queue. -/
def Recast.front (q : List Bytes) : Recast := ⟨(q ++ ·), id, fun l r _ => (List.append_assoc q l [r]).symm⟩

/-- The change that takes empty records out of a queue. -/
def Recast.dense : Recast where
  out := List.filter (!·.isEmpty)
  plain := id
  adds l r hr := by simp [hr]

namespace Engine

/-- The records that an input makes. -/
def made (e : Engine) (x : Input) : List Bytes := ((e.queued []).tell x).out

@[simp] theorem queued_made (e : Engine) (q : List Bytes) (x : Input) : (e.queued q).made x = e.made x := rfl

/-- What is queued has no bearing on what an input does, and what that makes is queued behind it. -/
theorem tell_queued (e : Engine) (q : List Bytes) (x : Input) :
    (e.queued q).tell x = (e.tell x).queued (q ++ e.made x) := by
  have h : ∀ q, (e.queued q).tell x = ((e.queued []).tell x).queued (q ++ e.made x) := by
    intro q
    have hq : e.queued q = (Recast.front q).engine (e.queued []) := by
      simp only [Recast.front, Recast.engine, queued, List.append_nil, id]
    rw [hq, (Recast.front q).engine_tell rfl]
    rfl
  have he := h e.out
  rw [queued_self] at he
  rw [h q, he, queued_queued]

theorem tell_out (e : Engine) (x : Input) : (e.tell x).out = e.out ++ e.made x := by
  have := congrArg out (e.tell_queued e.out x)
  rwa [queued_self] at this

/-- Records are never empty. -/
theorem tell_dense {e : Engine} (h : [] ∉ e.out) (x : Input) : [] ∉ (e.tell x).out := by
  have he : Recast.dense.engine e = e := by
    have : e.out.filter (!·.isEmpty) = e.out := List.filter_eq_self.2 fun r hr => by
      cases r with
      | nil => exact absurd hr h
      | cons => rfl
    simp only [Recast.engine, Recast.dense, this, id]
  have ht := Recast.dense.engine_tell rfl e x
  rw [he] at ht
  intro hm
  rw [ht] at hm
  have := (List.mem_filter.1 hm).2
  simp at this

/-- All plaintext that is read by some inputs. -/
def yields (e : Engine) : List Input → Bytes
  | [] => []
  | .read n :: xs => e.plain.take n ++ (e.tell (.read n)).yields xs
  | x :: xs => (e.tell x).yields xs

theorem yields_append (e : Engine) (xs ys : List Input) :
    e.yields (xs ++ ys) = e.yields xs ++ (e.after xs).yields ys := by
  induction xs generalizing e with
  | nil => rfl
  | cons x xs ih =>
    cases x with
    | read n => simp only [List.cons_append, yields, ih, List.append_assoc]; rfl
    | take v r => exact ih _
    | encrypt data => exact ih _
    | closeNotify => exact ih _

end Engine

/-! ## What drains a queue -/

namespace Drains

variable {q q' : List Bytes} {ps : List Push} {x : Except Fault Bool}

/-- What was queued was accepted or is still queued. -/
theorem kept (h : Drains q ps q' x) : q.flatten = sent ps ++ q'.flatten := by
  induction h with
  | clear => rfl
  | blocked r rest => rfl
  | failed r rest f => rfl
  | accepted h0 hn h ih => rw [flatten_unsent, ih, sent_cons, List.append_assoc]; rfl

theorem dense (h : Drains q ps q' x) (hd : [] ∉ q) : [] ∉ q' := by
  induction h with
  | clear => exact hd
  | blocked => exact hd
  | failed => exact hd
  | accepted h0 hn h ih => exact ih (unsent_dense hd _)

/-- Each push offers bytes, and begins with the first that was not accepted. -/
theorem resumes (h : Drains q ps q' x) (hd : [] ∉ q) :
    ∀ us p vs, ps = us ++ p :: vs → p.data ≠ [] ∧ p.data <+: q.flatten.drop (sent us).length := by
  induction h with
  | clear =>
    intro us p vs hs
    exact absurd hs.symm (by simp)
  | blocked r rest =>
    intro us p vs hs
    cases us with
    | nil =>
      cases hs
      exact ⟨fun h => hd (h ▸ .head _), by simp⟩
    | cons y us => simp at hs
  | failed r rest f =>
    intro us p vs hs
    cases us with
    | nil =>
      cases hs
      exact ⟨fun h => hd (h ▸ .head _), by simp⟩
    | cons y us => simp at hs
  | @accepted r rest n ps q x h0 hn h ih =>
    intro us p vs hs
    cases us with
    | nil =>
      cases hs
      exact ⟨fun h => hd (h ▸ .head _), by simp⟩
    | cons y us =>
      rw [List.cons_append, List.cons.injEq] at hs
      obtain ⟨rfl, hs⟩ := hs
      have := ih (unsent_dense hd _) us p vs hs
      refine ⟨this.1, ?_⟩
      have htake : (r.take n).length = n := by rw [List.length_take]; omega
      rw [flatten_unsent r rest n, sent_cons, List.length_append, ← List.drop_drop]
      change _ <+: List.drop _ (List.drop (r.take n).length _)
      rw [List.drop_left]
      exact this.2

end Drains

/-! ## The account of an engine at work -/

/-- The bytes that were taken, one entry for each time. -/
def Desk.taken (d : Desk) : List Bytes := d.seen.filterMap Glance.taken?

@[simp] theorem Desk.taken_looked (d : Desk) (header : Bytes) : (d.looked header).taken = d.taken := by
  simp [Desk.taken, Desk.looked, Glance.taken?, List.filterMap_cons]

@[simp] theorem Desk.taken_took (d : Desk) (r : Bytes) (rx : Segments) : (d.took r rx).taken = d.taken ++ [r] := by
  simp [Desk.taken, Desk.took, Glance.taken?]

/-- Where a list with something appended is split. -/
theorem split_append {α : Type} {l m us vs : List α} {p : α} (h : l ++ m = us ++ p :: vs) :
    (∃ ws, l = us ++ p :: ws) ∨ ∃ ws, us = l ++ ws ∧ m = ws ++ p :: vs := by
  rcases List.append_eq_append_iff.1 h with ⟨ws, h₁, h₂⟩ | ⟨ws, h₁, h₂⟩
  · exact .inr ⟨ws, h₁, h₂⟩
  · cases ws with
    | nil => exact .inr ⟨[], by simpa using h₁.symm, by simpa using h₂.symm⟩
    | cons y ws =>
      rw [List.cons_append, List.cons.injEq] at h₂
      obtain ⟨rfl, -⟩ := h₂
      exact .inl ⟨ws, h₁⟩

/-- Where a list with one more element is split. -/
theorem split_concat {α : Type} {l us vs : List α} {x p : α} (h : l ++ [x] = us ++ p :: vs) :
    (∃ ws, l = us ++ p :: ws) ∨ (us = l ∧ p = x ∧ vs = []) := by
  rcases split_append h with hl | ⟨ws, hus, hm⟩
  · exact .inl hl
  · cases ws with
    | nil =>
      cases hm
      exact .inr ⟨by simpa using hus, rfl, rfl⟩
    | cons y ws => simp at hm

/-- What an engine that began as `e₀` has sent, after the inputs `xs` and the pushes `ps`. -/
structure Outgoing (e₀ : Engine) (xs : List Input) (e : Engine) (ps : List Push) : Prop where
  /-- It is as if it had sent nothing, but for the queue. -/
  same : e = (e₀.after xs).queued e.out
  /-- What it has made was accepted or is queued. -/
  kept : (e₀.after xs).out.flatten = sent ps ++ e.out.flatten
  dense : [] ∉ e.out
  /-- Each push offers bytes, from the first on that was not accepted. -/
  resumes : ∀ us p vs, ps = us ++ p :: vs →
    p.data ≠ [] ∧ p.data <+: (e₀.after xs).out.flatten.drop (sent us).length

namespace Outgoing

variable {e₀ e : Engine} {xs : List Input} {ps : List Push}

theorem start (h : [] ∉ e₀.out) : Outgoing e₀ [] e₀ [] :=
  ⟨rfl, rfl, h, fun _ _ _ h => absurd h.symm (by simp)⟩

theorem plain_eq (h : Outgoing e₀ xs e ps) : (e₀.after xs).plain = e.plain := by
  rw [h.same]
  rfl

theorem sends (h : Outgoing e₀ xs e ps) {qs : List Push} {q : List Bytes} {x : Except Fault Bool}
    (hdr : Drains e.out qs q x) : Outgoing e₀ xs (e.queued q) (ps ++ qs) where
  same := by
    rw [h.same]
    rfl
  kept := by
    rw [h.kept, hdr.kept, sent_append, List.append_assoc]
    rfl
  dense := hdr.dense h.dense
  resumes us p vs hs := by
    rcases split_append hs with ⟨ws, hw⟩ | ⟨ws, rfl, hw⟩
    · exact h.resumes us p ws hw
    · rw [h.kept, sent_append, List.length_append, ← List.drop_drop, List.drop_left]
      exact hdr.resumes h.dense ws p vs hw

theorem tells (h : Outgoing e₀ xs e ps) (x : Input) : Outgoing e₀ (xs ++ [x]) (e.tell x) ps := by
  have ht : e.tell x = ((e₀.after xs).tell x).queued (e.out ++ (e₀.after xs).made x) := by
    conv => lhs; rw [h.same]
    exact Engine.tell_queued ..
  refine ⟨?_, ?_, Engine.tell_dense h.dense x, fun us p vs hs => ?_⟩
  · rw [Engine.after_append, Engine.after_singleton, ht]
    rfl
  · rw [Engine.after_append, Engine.after_singleton, Engine.tell_out, ht, List.flatten_append, h.kept,
      List.append_assoc, ← List.flatten_append]
    rfl
  · obtain ⟨h₁, h₂⟩ := h.resumes us p vs hs
    refine ⟨h₁, h₂.trans ?_⟩
    rw [Engine.after_append, Engine.after_singleton, Engine.tell_out, List.flatten_append]
    exact List.IsPrefix.drop (List.prefix_append _ _) _

end Outgoing

/-- What an engine has taken of the ciphertext `b` that has come in, and what of it was handed over with the inputs
`xs`. -/
structure Incoming (b : Bytes) (xs : List Input) (d : Desk) : Prop where
  wellFormed : d.rx.WellFormed
  /-- What is taken is handed over. -/
  handed : xs.filterMap Input.record? = d.taken
  /-- What came in was taken or is still there. -/
  arrived : d.taken.flatten ++ d.rx.toList = b
  /-- What is taken is a record. -/
  whole : ∀ r ∈ d.taken, Wire.IsRecord r ∧ r.length ≤ Wire.maxRecord
  /-- What is taken was looked at just before. -/
  looks : ∀ us r vs, d.seen = us ++ .took r :: vs → ∃ ws, us = ws ++ [.looked (r.take 5)]

namespace Incoming

variable {b : Bytes} {xs : List Input} {d : Desk}

theorem start (answers : List (Except Fault Nat)) (v : Pool) : Incoming [] [] { answers, pool := v } where
  wellFormed := Segments.wellFormed_default
  handed := rfl
  arrived := rfl
  whole := by simp [Desk.taken]
  looks us r vs h := absurd h.symm (by simp)

theorem arrives (h : Incoming b xs d) (s : Bytes) : Incoming (b ++ s) xs { d with rx := d.rx.push s } where
  wellFormed := h.wellFormed.push
  handed := h.handed
  arrived := by
    change d.taken.flatten ++ (d.rx.push s).toList = b ++ s
    rw [Segments.toList_push, ← List.append_assoc, h.arrived]
  whole := h.whole
  looks := h.looks

theorem tells (h : Incoming b xs d) {x : Input} (hx : x.record? = none) : Incoming b (xs ++ [x]) d :=
  { h with handed := by simpa [hx] using h.handed }

theorem looked (h : Incoming b xs d) (header : Bytes) : Incoming b xs (d.looked header) where
  wellFormed := h.wellFormed
  handed := h.handed.trans (d.taken_looked header).symm
  arrived := by
    rw [d.taken_looked]
    exact h.arrived
  whole := by
    rw [d.taken_looked]
    exact h.whole
  looks us r vs hs := by
    rcases split_concat hs with ⟨ws, hw⟩ | ⟨-, hr, -⟩
    · exact h.looks us r ws hw
    · cases hr

theorem took (h : Incoming b xs d) {r rest : Bytes} {rx : Segments} (hr : Wire.next? d.rx.toList = some (r, rest))
    (hs : r.length ≤ Wire.maxRecord) (hw : rx.WellFormed) (hrx : rx.toList = rest) (v : Pool) :
    Incoming b (xs ++ [.take v r]) ((d.looked (d.rx.toList.take 5)).took r rx) := by
  obtain ⟨hrec, hc⟩ := Wire.next_eq_some hr
  have ht : ((d.looked (d.rx.toList.take 5)).took r rx).taken = d.taken ++ [r] := by simp
  refine ⟨hw, ?_, ?_, ?_, fun us x vs hsplit => ?_⟩
  · rw [ht, List.filterMap_append, h.handed]
    rfl
  · rw [ht, ← h.arrived, hc, ← hrx]
    simp [Desk.took]
  · rw [ht]
    intro x hx
    rcases List.mem_append.1 hx with hx | hx
    · exact h.whole x hx
    · rw [List.mem_singleton.1 hx]
      exact ⟨hrec, hs⟩
  · rcases split_concat hsplit with ⟨ws, hw⟩ | ⟨rfl, hx, -⟩
    · exact (h.looked _).looks us x ws hw
    · cases hx
      refine ⟨d.seen, ?_⟩
      rw [hc, List.take_append_of_le_length (Wire.announced_ge hrec).1]
      rfl

end Incoming

/-- What may be said of an engine that began as `e₀` and has had the inputs `xs`, when the ciphertext `b` has come in.
-/
structure Account (e₀ : Engine) (b : Bytes) (xs : List Input) (e : Engine) (d : Desk) : Prop where
  out : Outgoing e₀ xs e d.pushes
  inc : Incoming b xs d
  quiet : e.Quiet
  /-- No plaintext is left when a record is handed over. -/
  emptied : ∀ us v r vs, xs = us ++ .take v r :: vs → (e₀.after us).plain = []

namespace Account

variable {e₀ e : Engine} {b : Bytes} {xs : List Input} {d : Desk}

theorem start (hd : [] ∉ e₀.out) (hq : e₀.Quiet) (answers : List (Except Fault Nat)) (v : Pool) :
    Account e₀ [] [] e₀ { answers, pool := v } :=
  ⟨.start hd, .start answers v, hq, fun _ _ _ _ h => absurd h.symm (by simp)⟩

theorem arrives (h : Account e₀ b xs e d) (s : Bytes) : Account e₀ (b ++ s) xs e { d with rx := d.rx.push s } :=
  ⟨h.out, h.inc.arrives s, h.quiet, h.emptied⟩

theorem shares (h : Account e₀ b xs e d) (v : Pool) : Account e₀ b xs e { d with pool := v } :=
  ⟨h.out, { h.inc with }, h.quiet, h.emptied⟩

theorem looked (h : Account e₀ b xs e d) (header : Bytes) : Account e₀ b xs e (d.looked header) :=
  ⟨h.out, h.inc.looked header, h.quiet, h.emptied⟩

theorem sends (h : Account e₀ b xs e d) {ps : List Push} {q : List Bytes} {x : Except Fault Bool}
    (hdr : Drains e.out ps q x) (answers : List (Except Fault Nat)) :
    Account e₀ b xs (e.queued q) (d.sent ps answers) :=
  ⟨h.out.sends hdr, { h.inc with }, h.quiet, h.emptied⟩

/-- An input that is no record. -/
theorem tells (h : Account e₀ b xs e d) {x : Input} (hx : x.record? = none) :
    Account e₀ b (xs ++ [x]) (e.tell x) d := by
  refine ⟨h.out.tells x, h.inc.tells hx, Engine.tell_quiet h.quiet x, fun us v r vs hs => ?_⟩
  rcases split_concat hs with ⟨ws, hw⟩ | ⟨-, rfl, -⟩
  · exact h.emptied us v r ws hw
  · cases hx

/-- A record, which is handed over when no plaintext is left. -/
theorem takes (h : Account e₀ b xs e d) (hp : e.plain = []) {r rest : Bytes} {rx : Segments}
    (hr : Wire.next? d.rx.toList = some (r, rest)) (hs : r.length ≤ Wire.maxRecord) (hw : rx.WellFormed)
    (hrx : rx.toList = rest) (v v' : Pool) :
    Account e₀ b (xs ++ [.take v r]) (e.accept v r)
      { (d.looked (d.rx.toList.take 5)).took r rx with pool := v' } := by
  refine ⟨h.out.tells (.take v r), { h.inc.took hr hs hw hrx v with }, Engine.accept_quiet h.quiet v r,
    fun us v r vs hs => ?_⟩
  rcases split_concat hs with ⟨ws, hw⟩ | ⟨rfl, -, -⟩
  · exact h.emptied us v r ws hw
  · rw [h.out.plain_eq, hp]

end Account

/-! ## One call -/

/-- Nothing can be taken from the ciphertext that is there. -/
def Desk.Waits (d : Desk) : Prop := Wire.next? d.rx.toList = none ∧ ¬ Wire.Oversized d.rx.toList

/-- When a header of a record that is too long is met, that is the end: nothing of it is taken, and the answer is the
fault. -/
def Heeds {α : Type} (ws : List Glance) (x : Except Fault α) : Prop :=
  ∀ us header vs, ws = us ++ .looked header :: vs → Wire.Oversized header →
    vs = [] ∧ ∃ n handshaking, Wire.announced? header = some n ∧ x = .error (tooLong handshaking n)

/-- What a call has done that has had the answer `x`: the inputs `ys` were added, and headers were heeded. -/
structure Went {α : Type} (e₀ : Engine) (b : Bytes) (xs : List Input) (d : Desk) (ys : List Input)
    (e' : Engine) (x : Except Fault α) (d' : Desk) : Prop where
  account : Account e₀ b (xs ++ ys) e' d'
  heeds : ∃ ws, d'.seen = d.seen ++ ws ∧ Heeds ws x

section Heeds

variable {α : Type} {x : Except Fault α} {header : Bytes}

theorem Heeds.nil : Heeds [] x := fun us h vs hs => absurd hs.symm (by simp)

theorem Heeds.looked (h : ¬ Wire.Oversized header) : Heeds [.looked header] x := by
  intro us h' vs hs hbig
  cases us with
  | nil =>
    cases hs
    exact absurd hbig h
  | cons y us => simp at hs

theorem Heeds.stops {n : Nat} (h : Wire.announced? header = some n) (handshaking : Bool) :
    Heeds (α := α) [.looked header] (.error (tooLong handshaking n)) := by
  intro us h' vs hs _
  cases us with
  | nil =>
    cases hs
    exact ⟨rfl, n, handshaking, h, rfl⟩
  | cons y us => simp at hs

theorem Heeds.took {ws : List Glance} {r : Bytes} (h : ¬ Wire.Oversized header) (hw : Heeds ws x) :
    Heeds (.looked header :: .took r :: ws) x := by
  intro us h' vs hs hbig
  match us with
  | [] =>
    cases hs
    exact absurd hbig h
  | [y] => simp at hs
  | y :: z :: us =>
    simp only [List.cons_append, List.cons.injEq] at hs
    exact hw us h' vs hs.2.2 hbig

/-- The same holds of a result that is the same fault. -/
theorem Heeds.error {β : Type} {ws : List Glance} {f : Fault} (h : Heeds ws (.error f : Except Fault α)) :
    Heeds ws (.error f : Except Fault β) := by
  intro us h' vs hs hbig
  obtain ⟨hv, n, handshaking, hn, hx⟩ := h us h' vs hs hbig
  cases hx
  exact ⟨hv, n, handshaking, hn, rfl⟩

/-- A call that has an answer has met no such header. -/
theorem Heeds.ok {β : Type} {ws : List Glance} {a : α} (h : Heeds ws (.ok a : Except Fault α)) (y : Except Fault β) :
    Heeds ws y := by
  intro us h' vs hs hbig
  obtain ⟨-, n, handshaking, -, hx⟩ := h us h' vs hs hbig
  cases hx

end Heeds

section Went

variable {α : Type} {e₀ e e' : Engine} {b : Bytes} {xs ys : List Input} {d d' : Desk} {x : Except Fault α}

theorem Went.still (h : Account e₀ b xs e d) (x : Except Fault α) : Went e₀ b xs d [] e x d :=
  ⟨by simpa using h, [], by simp, .nil⟩

/-- What is sent makes no difference. -/
theorem Went.sends (h : Went e₀ b xs d ys e x d') {ps : List Push} {q : List Bytes} {y : Except Fault Bool}
    (hdr : Drains e.out ps q y) (answers : List (Except Fault Nat)) :
    Went e₀ b xs d ys (e.queued q) x (d'.sent ps answers) :=
  ⟨h.account.sends hdr answers, h.heeds⟩

/-- What is sent first makes no difference. -/
theorem Went.sent {ps : List Push} {answers : List (Except Fault Nat)}
    (h : Went e₀ b xs (d.sent ps answers) ys e x d') : Went e₀ b xs d ys e x d' := ⟨h.account, h.heeds⟩

theorem Went.took {d₁ : Desk} {header r : Bytes} {y : Input} (hd : d₁.seen = d.seen ++ [.looked header, .took r])
    (ho : ¬ Wire.Oversized header) (h : Went e₀ b (xs ++ [y]) d₁ ys e x d') : Went e₀ b xs d (y :: ys) e x d' := by
  obtain ⟨ha, ws, hw, hh⟩ := h
  refine ⟨by simpa using ha, .looked header :: .took r :: ws, ?_, hh.took ho⟩
  rw [hw, hd]
  simp

end Went

/-! ### Records, one after the other -/

/-- What an attempt to take a record means to the call that makes it. -/
inductive Attempt (e₀ : Engine) (b : Bytes) (xs : List Input) (d : Desk) : Engine → Except Fault Bool → Desk → Prop
  /-- There is none; the call may answer what it likes. -/
  | waits {e' : Engine} {d' : Desk} (hd : d'.Waits)
      (h : ∀ {α : Type} (x : Except Fault α), Went e₀ b xs d [] e' x d') : Attempt e₀ b xs d e' (.ok false) d'
  /-- It failed, and so must the call. -/
  | failed {e' : Engine} {d' : Desk} {f : Fault} (ys : List Input) (hy : ∀ y ∈ ys, y.record?.isSome)
      (h : ∀ {α : Type}, Went e₀ b xs d ys e' (.error f : Except Fault α) d') : Attempt e₀ b xs d e' (.error f) d'
  /-- It was taken; there is less ciphertext, and the call goes on. -/
  | took {e' : Engine} {d' : Desk} (y : Input) (hy : y.record?.isSome) (hlt : d'.rx.size < d.rx.size)
      (account : Account e₀ b (xs ++ [y]) e' d')
      (h : ∀ {α : Type} {ys : List Input} {e'' : Engine} {x : Except Fault α} {d'' : Desk},
        Went e₀ b (xs ++ [y]) d' ys e'' x d'' → Went e₀ b xs d (y :: ys) e'' x d'') : Attempt e₀ b xs d e' (.ok true) d'

variable {e₀ e : Engine} {b : Bytes} {xs : List Input} {d : Desk}

theorem Account.feeds (h : Account e₀ b xs e d) (hp : e.plain = []) :
    ∃ e' x d', d.run (feed e) = ((e', x), d') ∧ Attempt e₀ b xs d e' x d' := by
  obtain ⟨e', x, d', hrun, hfed⟩ := run_feed h.inc.wellFormed e
  refine ⟨e', x, d', hrun, ?_⟩
  cases hfed with
  | waits hn ho =>
    refine .waits ⟨hn, ho⟩ fun x => ⟨by simpa using h.looked _, _, rfl, ?_⟩
    exact .looked (mt Wire.oversized_take.1 ho)
  | refused ha hbig =>
    refine .failed [] (by simp) ⟨by simpa using h.looked _, _, rfl, ?_⟩
    exact .stops (Wire.announced_take ha (Nat.le_refl 5)) _
  | @taken r rest rx v _ hr hs hw hrx hx =>
    have ho := mt Wire.oversized_take.1 (Wire.next_not_oversized hr hs)
    have hacc := h.takes hp hr hs hw hrx d.pool v
    have hseen : ({ (d.looked (d.rx.toList.take 5)).took r rx with pool := v } : Desk).seen =
        d.seen ++ [.looked (d.rx.toList.take 5), .took r] := by simp [Desk.looked, Desk.took]
    cases x with
    | error f =>
      refine .failed [.take d.pool r] (by simp [Input.record?]) ?_
      exact .took hseen ho (.still hacc _)
    | ok more =>
      cases more with
      | false => exact absurd rfl hx
      | true =>
        refine .took (.take d.pool r) rfl ?_ hacc fun hwent => .took hseen ho hwent
        obtain ⟨hrec, hc⟩ := Wire.next_eq_some hr
        have hsz := h.inc.wellFormed.size_eq
        have h5 := (Wire.announced_ge hrec).1
        rw [hc, List.length_append] at hsz
        change rx.size < d.rx.size
        rw [hw.size_eq, hrx]
        omega

theorem Account.flushes (h : Account e₀ b xs e d) :
    ∃ ps q answers x, Drains e.out ps q x ∧ d.run (flush e) = ((e.queued q, x), d.sent ps answers) ∧
      Account e₀ b xs (e.queued q) (d.sent ps answers) := by
  obtain ⟨ps, q, answers, x, hdr, hrun⟩ := run_flush e d h.out.dense
  exact ⟨ps, q, answers, x, hdr, hrun, h.sends hdr answers⟩

/-- The alert that goes with a failure makes no difference to what the call has done. -/
theorem Went.failsWith {α : Type} {f : Fault} {ys : List Input} {e' : Engine} {d' : Desk}
    (h : Went e₀ b xs d ys e' (.error f : Except Fault α) d') :
    ∃ e'' d'', d'.run (failWith e' f) = ((e'', f), d'') ∧ Went e₀ b xs d ys e'' (.error f : Except Fault α) d'' := by
  obtain ⟨ps, q, answers, x, hdr, hrun⟩ := run_flush e' d' h.account.out.dense
  refine ⟨e'.queued q, d'.sent ps answers, ?_, h.sends hdr answers⟩
  unfold failWith
  rw [Desk.run_bind, hrun]
  cases x with
  | ok y => rfl
  | error g => rfl

/-- The handshake, as far as `k` records. -/
theorem run_shake (k : Nat) : ∀ {e : Engine} {d : Desk} {xs : List Input}, Account e₀ b xs e d → d.rx.size < k →
    ∃ e' x d' ys, d.run (shake k e) = ((e', x), d') ∧ Went e₀ b xs d ys e' x d' ∧ (∀ y ∈ ys, y.record?.isSome) ∧
      (x = .ok () → e'.isHandshaking = true → d'.Waits) := by
  induction k with
  | zero =>
    intro e d xs h hk
    exact absurd hk (Nat.not_lt_zero _)
  | succ k ih =>
    intro e d xs h hk
    unfold shake
    rw [Desk.run_ite]
    by_cases hh : e.isHandshaking
    · rw [if_neg (by simp [hh]), Desk.run_bind]
      obtain ⟨ps, q, answers, x, -, hrun, h₁⟩ := h.flushes
      rw [hrun]
      cases x with
      | error f => exact ⟨_, _, _, [], rfl, .sent (.still h₁ _), by simp, fun hx => by cases hx⟩
      | ok clear =>
        have hp : (e.queued q).plain = [] := h.quiet (by simpa [Engine.isHandshaking] using hh)
        obtain ⟨e₂, x₂, d₂, hfeed, hatt⟩ := h₁.feeds hp
        dsimp only
        rw [Desk.run_bind, hfeed]
        cases hatt with
        | waits hd hw => exact ⟨_, _, _, [], rfl, .sent (hw _), by simp, fun _ _ => hd⟩
        | failed ys hy hw =>
          obtain ⟨e₃, d₃, hfail, hw₃⟩ := (hw (α := Unit)).failsWith
          dsimp only
          rw [Desk.run_bind, hfail]
          exact ⟨_, _, _, ys, rfl, .sent hw₃, hy, fun hx => by cases hx⟩
        | took y hy hlt h₂ hw =>
          have hlt : d₂.rx.size < d.rx.size := hlt
          obtain ⟨e', x', d', ys, hrun', hwent, htakes, hwait⟩ := ih h₂ (by omega)
          exact ⟨e', x', d', y :: ys, hrun', .sent (hw hwent), List.forall_mem_cons.2 ⟨hy, htakes⟩, hwait⟩
    · rw [if_pos (by simp [hh])]
      exact ⟨e, _, d, [], rfl, .still h _, by simp, fun _ he => absurd he hh⟩

/-- What a call of the handshake does. -/
theorem run_handshake (h : Account e₀ b xs e d) :
    ∃ e' x d' ys, d.run (handshake e) = ((e', x), d') ∧ Went e₀ b xs d ys e' x d' ∧ (∀ y ∈ ys, y.record?.isSome) ∧
      (x = .ok .inProgress → d'.Waits) := by
  unfold handshake
  rw [Desk.run_bind, Desk.run_available]
  obtain ⟨e₁, x, d₁, ys, hrun, hwent, htakes, hwait⟩ := run_shake (d.rx.size + 1) h (Nat.lt_succ_self _)
  dsimp only
  rw [Desk.run_bind, hrun]
  obtain ⟨ws, hws, hh⟩ := hwent.heeds
  cases x with
  | error f => exact ⟨_, _, _, ys, rfl, ⟨hwent.account, ws, hws, hh.error⟩, htakes, fun hx => nomatch hx⟩
  | ok u =>
    obtain ⟨ps, q, answers, x, -, hrun₂, h₂⟩ := hwent.account.flushes
    dsimp only
    rw [Desk.run_bind, hrun₂]
    refine ⟨_, _, _, ys, rfl, ⟨h₂, ws, hws, hh.ok _⟩, htakes, fun hx => ?_⟩
    cases x with
    | error f => cases hx
    | ok clear =>
      have hs : e₁.isHandshaking := by
        by_contra hn
        have : (if e₁.isHandshaking = true then Progress.inProgress else .done) = .inProgress := Except.ok.inj hx
        rw [if_neg hn] at this
        cases this
      exact hwait rfl hs

/-! ### Decryption -/

/-- What a decryption may do: it takes records, and then yields plaintext, or it finds none. -/
inductive Decrypts (n : Nat) (f : Engine) : List Input → Except Fault Decrypted → Desk → Prop
  | data (hp : f.plain ≠ []) (d : Desk) : Decrypts n f [.read n] (.ok (.data (f.plain.take n))) d
  | peerClosed (hp : f.plain = []) (d : Desk) : Decrypts n f [] (.ok .peerClosed) d
  | wouldBlock {d : Desk} (hp : f.plain = []) (hd : d.Waits) : Decrypts n f [] (.ok .wouldBlock) d
  | failed (g : Fault) (d : Desk) : Decrypts n f [] (.error g) d

theorem run_decryptIn (n k : Nat) : ∀ {e : Engine} {d : Desk} {xs : List Input}, Account e₀ b xs e d → d.rx.size < k →
    ∃ e' x d' ys zs, d.run (decryptIn n k e) = ((e', x), d') ∧ Went e₀ b xs d (ys ++ zs) e' x d' ∧
      (∀ y ∈ ys, y.record?.isSome) ∧ Decrypts n (e₀.after (xs ++ ys)) zs x d' := by
  induction k with
  | zero =>
    intro e d xs h hk
    exact absurd hk (Nat.not_lt_zero _)
  | succ k ih =>
    intro e d xs h hk
    unfold decryptIn
    rw [Desk.run_ite, Desk.run_ite]
    have hplain := h.out.plain_eq
    by_cases hp : e.plain = []
    · rw [if_neg (by simp [hp])]
      by_cases hc : e.peerClosed
      · rw [if_pos hc]
        exact ⟨e, _, d, [], [], rfl, .still h _, by simp, .peerClosed (by simpa using hplain.trans hp) d⟩
      · obtain ⟨e₂, x₂, d₂, hfeed, hatt⟩ := h.feeds hp
        rw [if_neg hc, Desk.run_bind, hfeed]
        cases hatt with
        | waits hd hw =>
          exact ⟨_, _, _, [], [], rfl, hw _, by simp, .wouldBlock (by simpa using hplain.trans hp) hd⟩
        | failed ys hy hw =>
          obtain ⟨e₃, d₃, hfail, hw₃⟩ := (hw (α := Decrypted)).failsWith
          dsimp only
          rw [Desk.run_bind, hfail]
          exact ⟨_, _, _, ys, [], rfl, by simpa using hw₃, hy, .failed ..⟩
        | took y hy hlt h₂ hw =>
          obtain ⟨ps, q, answers, x, -, hrun₂, h₃⟩ := h₂.flushes
          dsimp only
          rw [Desk.run_bind, hrun₂]
          cases x with
          | error f =>
            exact ⟨_, _, _, [y], [], rfl, hw (.sent (.still h₃ _)), by simp [hy], .failed ..⟩
          | ok clear =>
            obtain ⟨e', x', d', ys, zs, hrun', hwent, htakes, hdec⟩ := ih h₃ (show d₂.rx.size < k by omega)
            refine ⟨e', x', d', y :: ys, zs, hrun', hw (.sent hwent), List.forall_mem_cons.2 ⟨hy, htakes⟩, ?_⟩
            rwa [List.append_cons]
    · rw [if_pos (by simpa using hp)]
      refine ⟨_, _, d, [], [.read n], rfl, ⟨h.tells rfl, [], by simp, .nil⟩, by simp, ?_⟩
      have : (e₀.after (xs ++ [])).plain = e.plain := by simpa using hplain
      rw [← this]
      exact .data (by rwa [this]) d

/-- What a call of decryption does. -/
theorem run_decrypt (h : Account e₀ b xs e d) (n : Nat) :
    ∃ e' x d' ys zs, d.run (decrypt e n) = ((e', x), d') ∧ Went e₀ b xs d (ys ++ zs) e' x d' ∧
      (∀ y ∈ ys, y.record?.isSome) ∧ Decrypts n (e₀.after (xs ++ ys)) zs x d' := by
  unfold decrypt
  rw [Desk.run_ite]
  by_cases h0 : n = 0
  · rw [if_pos h0]
    exact ⟨e, _, d, [], [], rfl, .still h _, by simp, .failed ..⟩
  · rw [if_neg h0, Desk.run_bind, Desk.run_available]
    exact run_decryptIn n _ h (Nat.lt_succ_self _)

end Conduit.Tls.Sized
