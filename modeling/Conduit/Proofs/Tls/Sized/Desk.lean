import Conduit.Proofs.Tls.Sized.Inputs
import Conduit.Proofs.Tls.Sized.Parse
import Conduit.Proofs.Tls.Works

/-!
# An engine at its desk

An engine at work sees ciphertext come in and has its pushes answered. Both are kept on its desk, with a record of how
it has looked at the one and of what became of the other. The answers to its pushes are fixed beforehand.

* `Desk`, `Desk.answer`: the surroundings of an engine.
* `Drains`, `run_flush`: sending takes records off the front of the queue until a push is not accepted.
* `Fed`, `run_feed`: an attempt to take the next record.
-/

namespace Conduit.Tls.Sized

/-- How an engine has looked at the ciphertext that has arrived. -/
inductive Glance
  /-- It has looked at the first bytes. -/
  | looked (header : Bytes)
  /-- It has taken bytes away. -/
  | took (record : Bytes)

/-- The bytes that were taken away. -/
def Glance.taken? : Glance → Option Bytes
  | .looked _ => none
  | .took r => some r

/-- The surroundings of an engine. -/
structure Desk where
  /-- The ciphertext that has arrived and was not taken. -/
  rx : Segments := {}
  /-- How the engine has looked at it. -/
  seen : List Glance := []
  /-- The answers to the next pushes. When they are used up, everything is accepted. -/
  answers : List (Except Fault Nat) := []
  /-- The pushes so far, with their answers. -/
  pushes : List Push := []
  /-- What the engines share. -/
  pool : Pool

namespace Desk

/-- The answer to the next push: no more is accepted than is offered. -/
def verdict (d : Desk) (data : Bytes) : Except Fault Nat :=
  match d.answers with
  | [] => .ok data.length
  | x :: _ => x.map (min · data.length)

/-- After a push with an answer. -/
def pushed (d : Desk) (data : Bytes) (x : Except Fault Nat) : Desk :=
  { d with answers := d.answers.tail, pushes := d.pushes ++ [⟨data, x⟩] }

/-- After a look at the ciphertext. -/
def looked (d : Desk) (header : Bytes) : Desk := { d with seen := d.seen ++ [.looked header] }

/-- After bytes were taken from the ciphertext. -/
def took (d : Desk) (record : Bytes) (rx : Segments) : Desk := { d with rx, seen := d.seen ++ [.took record] }

/-- Answers the requests of an engine. -/
def answer : (r : RecordReq Pool) → StateM Desk r.Ans
  | .available => fun d => (d.rx.size, d)
  | .peek n => fun d => (d.rx.peek n, d.looked (d.rx.peek n))
  | .pull n => fun d => ((d.rx.read n).1, d.took (d.rx.read n).1 (d.rx.read n).2)
  | .push data => fun d => (d.verdict data, d.pushed data (d.verdict data))
  | .note _ => fun d => ((), d)
  | .shared => fun d => (d.pool, d)
  | .setShared v => fun d => ((), { d with pool := v })

variable {α β : Type}

/-- Runs a program of an engine. -/
def run (d : Desk) (p : Act α) : α × Desk := (p.run answer) d

@[simp] theorem run_done (d : Desk) (a : α) : d.run (.done a) = (a, d) := rfl

@[simp] theorem run_pure (d : Desk) (a : α) : d.run (pure a) = (a, d) := rfl

@[simp] theorem run_ask (d : Desk) (r : RecordReq Pool) (next : r.Ans → Act α) :
    d.run (.ask r next) = (answer r d).2.run (next (answer r d).1) := rfl

@[simp] theorem run_bind (d : Desk) (p : Act α) (f : α → Act β) :
    d.run (p >>= f) = (d.run p).2.run (f (d.run p).1) := by
  unfold run
  rw [Program.run_bind]
  rfl

@[simp] theorem run_available (d : Desk) :
    run (α := no_index Nat) d (Program.request (I := recordIo Pool) .available) = (d.rx.size, d) := rfl

@[simp] theorem run_peek (d : Desk) (n : Nat) :
    run (α := no_index Bytes) d (Program.request (I := recordIo Pool) (.peek n)) =
      (d.rx.peek n, d.looked (d.rx.peek n)) := rfl

@[simp] theorem run_pull (d : Desk) (n : Nat) :
    run (α := no_index Bytes) d (Program.request (I := recordIo Pool) (.pull n)) =
      ((d.rx.read n).1, d.took (d.rx.read n).1 (d.rx.read n).2) := rfl

@[simp] theorem run_push (d : Desk) (data : Bytes) :
    run (α := no_index (Except Fault Nat)) d (Program.request (I := recordIo Pool) (.push data)) =
      (d.verdict data, d.pushed data (d.verdict data)) := rfl

@[simp] theorem run_note (d : Desk) (n : Note) :
    run (α := no_index Unit) d (Program.request (I := recordIo Pool) (.note n)) = ((), d) := rfl

@[simp] theorem run_shared (d : Desk) :
    run (α := no_index Pool) d (Program.request (I := recordIo Pool) .shared) = (d.pool, d) := rfl

@[simp] theorem run_setShared (d : Desk) (v : Pool) :
    run (α := no_index Unit) d (Program.request (I := recordIo Pool) (.setShared v)) = ((), { d with pool := v }) := rfl

theorem run_ite (d : Desk) {P : Prop} [Decidable P] (p q : Act α) :
    d.run (if P then p else q) = if P then d.run p else d.run q := by
  split <;> rfl

end Desk

/-! ## Sending -/

/-- An engine with another queue. -/
def Engine.queued (e : Engine) (q : List Bytes) : Engine := { e with out := q }

@[simp] theorem Engine.queued_out (e : Engine) (q : List Bytes) : (e.queued q).out = q := rfl

@[simp] theorem Engine.queued_queued (e : Engine) (q q' : List Bytes) : (e.queued q).queued q' = e.queued q' := rfl

@[simp] theorem Engine.queued_self (e : Engine) : e.queued e.out = e := rfl


/-- What is left of a queue of records when `n` bytes of the first one were accepted. -/
def unsent (r : Bytes) (rest : List Bytes) (n : Nat) : List Bytes := if r.length ≤ n then rest else r.drop n :: rest

/-- `Drains q ps q' x`: sending from the queue `q` makes the pushes `ps`, leaves `q'`, and answers `x`. -/
inductive Drains : List Bytes → List Push → List Bytes → Except Fault Bool → Prop
  | clear : Drains [] [] [] (.ok true)
  | blocked (r : Bytes) (rest : List Bytes) : Drains (r :: rest) [⟨r, .ok 0⟩] (r :: rest) (.ok false)
  | failed (r : Bytes) (rest : List Bytes) (f : Fault) : Drains (r :: rest) [⟨r, .error f⟩] (r :: rest) (.error f)
  | accepted {r : Bytes} {rest : List Bytes} {n : Nat} {ps : List Push} {q : List Bytes} {x : Except Fault Bool}
      (h0 : 0 < n) (hn : n ≤ r.length) (h : Drains (unsent r rest n) ps q x) :
      Drains (r :: rest) (⟨r, .ok n⟩ :: ps) q x

theorem flatten_unsent (r : Bytes) (rest : List Bytes) (n : Nat) :
    (r :: rest).flatten = r.take n ++ (unsent r rest n).flatten := by
  unfold unsent
  split
  · rename_i h
    rw [List.take_of_length_le h, List.flatten_cons]
  · rw [List.flatten_cons, List.flatten_cons, ← List.append_assoc, List.take_append_drop]

theorem unsent_dense {r : Bytes} {rest : List Bytes} (h : [] ∉ r :: rest) (n : Nat) : [] ∉ unsent r rest n := by
  unfold unsent
  split
  · exact fun hm => h (.tail _ hm)
  · rename_i hlt
    intro hm
    rcases List.mem_cons.1 hm with hm | hm
    · have := congrArg List.length hm
      simp only [List.length_nil, List.length_drop] at this
      omega
    · exact h (.tail _ hm)

theorem Desk.verdict_le (d : Desk) (data : Bytes) : ∀ n, d.verdict data = .ok n → n ≤ data.length := by
  intro n hn
  unfold verdict at hn
  split at hn
  · cases hn
    exact Nat.le_refl _
  · rename_i x _ _
    cases x with
    | error f => cases hn
    | ok k =>
      cases hn
      exact Nat.min_le_right ..

/-- After some pushes, with what answers are left. -/
def Desk.sent (d : Desk) (ps : List Push) (answers : List (Except Fault Nat)) : Desk :=
  { d with answers, pushes := d.pushes ++ ps }

/-- Sending as it runs: it drains the queue, and changes nothing else. -/
theorem run_flushIn (k : Nat) : ∀ (e : Engine) (d : Desk), e.out.flatten.length ≤ k → [] ∉ e.out →
    ∃ ps q answers x, Drains e.out ps q x ∧ d.run (flushIn k e) = ((e.queued q, x), d.sent ps answers) := by
  induction k with
  | zero =>
    intro e d hk hd
    have hout : e.out = [] := by
      cases h : e.out with
      | nil => rfl
      | cons r rest =>
        rw [h] at hk hd
        have hr : r = [] := List.eq_nil_of_length_eq_zero (by simp at hk; simp [hk])
        exact absurd (hr ▸ .head _) hd
    refine ⟨[], [], d.answers, .ok true, hout ▸ .clear, ?_⟩
    rw [← hout, e.queued_self, flushIn, hout]
    simp [Desk.sent]
  | succ k ih =>
    intro e d hk hd
    unfold flushIn
    cases hout : e.out with
    | nil =>
      refine ⟨[], [], d.answers, .ok true, .clear, ?_⟩
      rw [← hout, e.queued_self, hout]
      simp [Desk.sent]
    | cons r rest =>
      have he : e.queued (r :: rest) = e := by rw [← hout, e.queued_self]
      have hle := d.verdict_le r
      simp only [Desk.run_bind, Desk.run_push]
      cases hx : d.verdict r with
      | error f =>
        refine ⟨_, _, d.answers.tail, _, .failed r rest f, ?_⟩
        rw [he]
        rfl
      | ok n =>
        cases n with
        | zero =>
          refine ⟨_, _, d.answers.tail, _, .blocked r rest, ?_⟩
          rw [he]
          rfl
        | succ n =>
          have hn := hle _ hx
          have hfl := congrArg List.length (flatten_unsent r rest (n + 1))
          rw [hout] at hk hd
          simp only [List.length_append, List.length_take, Nat.min_eq_left hn] at hfl
          obtain ⟨ps, q, answers, x, hdr, hrun⟩ := ih (e.queued (unsent r rest (n + 1)))
            (d.pushed r (.ok (n + 1))) (by simp only [Engine.queued_out]; omega) (unsent_dense hd _)
          refine ⟨_, q, answers, x, .accepted (Nat.succ_pos n) hn hdr, hrun.trans ?_⟩
          simp [Desk.pushed, Desk.sent]

theorem run_flush (e : Engine) (d : Desk) (hd : [] ∉ e.out) :
    ∃ ps q answers x, Drains e.out ps q x ∧ d.run (flush e) = ((e.queued q, x), d.sent ps answers) :=
  run_flushIn _ e d (Nat.le_refl _) hd

/-! ## Taking a record -/

/-- The fault of an engine that meets the header of a record of `n` bytes, which is too long. -/
def tooLong (handshaking : Bool) (n : Nat) : Fault :=
  Failure.stageFault handshaking ("record of " ++ toString n ++ " bytes exceeds protocol limit")

/-- What comes of an attempt to take the next record. -/
inductive Fed (e : Engine) (d : Desk) : Engine → Except Fault Bool → Desk → Prop
  /-- It is not there as a whole. -/
  | waits (hn : Wire.next? d.rx.toList = none) (ho : ¬ Wire.Oversized d.rx.toList) :
      Fed e d e (.ok false) (d.looked (d.rx.toList.take 5))
  /-- It is too long. Nothing of it is taken. -/
  | refused {n : Nat} (h : Wire.announced? d.rx.toList = some n) (hn : Wire.maxRecord < n) :
      Fed e d e (.error (tooLong e.isHandshaking n)) (d.looked (d.rx.toList.take 5))
  /-- It is taken and handed over. -/
  | taken {r rest : Bytes} {rx : Segments} {v : Pool} {x : Except Fault Bool}
      (hr : Wire.next? d.rx.toList = some (r, rest)) (hs : r.length ≤ Wire.maxRecord)
      (hw : rx.WellFormed) (hrx : rx.toList = rest) (hx : x ≠ .ok false) :
      Fed e d (e.accept d.pool r) x { (d.looked (d.rx.toList.take 5)).took r rx with pool := v }

/-- The first five bytes are a header, or there are not that many. -/
theorem header_cases (c : Bytes) :
    (∃ a b m hi lo, c.take 5 = [a, b, m, hi, lo] ∧ Wire.announced? c = some (5 + hi.toNat * 256 + lo.toNat)) ∨
      (Wire.announced? c = none ∧ ∀ a b m hi lo, c.take 5 ≠ [a, b, m, hi, lo]) := by
  match c with
  | a :: b :: m :: hi :: lo :: rest => exact .inl ⟨a, b, m, hi, lo, rfl, rfl⟩
  | [] | [_] | [_, _] | [_, _, _] | [_, _, _, _] => exact .inr ⟨rfl, fun _ _ _ _ _ h => by cases h⟩

theorem run_feed {d : Desk} (hw : d.rx.WellFormed) (e : Engine) :
    ∃ e' x d', d.run (feed e) = ((e', x), d') ∧ Fed e d e' x d' := by
  unfold feed
  simp only [Desk.run_bind, Desk.run_peek, Segments.peek_eq]
  rcases header_cases d.rx.toList with ⟨a, b, m, hi, lo, hc, ha⟩ | ⟨ha, hc⟩
  · rw [hc]
    dsimp only
    generalize hn : 5 + hi.toNat * 256 + lo.toNat = n at ha ⊢
    rw [Desk.run_ite]
    by_cases hbig : Wire.maxRecord < n
    · rw [if_pos hbig]
      refine ⟨_, _, _, rfl, ?_⟩
      rw [← hc]
      exact .refused ha hbig
    · rw [if_neg hbig, Desk.run_bind, Desk.run_available]
      dsimp only
      rw [Desk.run_ite]
      by_cases hshort : d.rx.size < n
      · rw [if_pos (show (d.looked _).rx.size < n from hshort)]
        refine ⟨_, _, _, rfl, ?_⟩
        rw [← hc]
        exact .waits (Wire.next_short ha (hw.size_eq ▸ hshort)) (Wire.not_oversized ha (Nat.not_lt.1 hbig))
      · obtain ⟨h₁, h₂, h₃⟩ := Segments.read_eq hw (n := n)
        have hle : n ≤ d.rx.toList.length := hw.size_eq ▸ Nat.not_lt.1 hshort
        have hlen : (d.rx.toList.take n).length = n := by rw [List.length_take, Nat.min_eq_left hle]
        -- whatever the engine makes of it, the record is taken
        have htaken : ∀ v x, x ≠ .ok false → Fed e d (e.accept d.pool (d.rx.toList.take n)) x
            { (d.looked [a, b, m, hi, lo]).took (d.rx.toList.take n) (d.rx.read n).2 with pool := v } := by
          intro v x hx
          rw [← hc]
          exact .taken (Wire.next_whole ha hle) (Nat.le_trans (Nat.le_of_eq hlen) (Nat.not_lt.1 hbig)) h₃ h₂ hx
        rw [if_neg (show ¬ (d.looked _).rx.size < n from hshort), Desk.run_bind, Desk.run_pull]
        dsimp only
        rw [show (d.looked [a, b, m, hi, lo]).rx = d.rx from rfl, h₁, Desk.run_ite]
        by_cases hfull : e.isFullFor n
        · rw [if_pos hfull]
          refine ⟨_, _, _, rfl, ?_⟩
          have hacc : e.accept d.pool (d.rx.toList.take n) = { e with backlog := e.capacity } := by
            rw [Engine.accept, hlen, if_pos hfull]
          rw [← hacc]
          exact htaken _ _ (by simp)
        · have hacc : e.accept d.pool (d.rx.toList.take n) = (e.process d.pool (d.rx.toList.take n)).1 := by
            rw [Engine.accept, hlen, if_neg hfull]
          rw [if_neg hfull]
          simp only [Desk.run_bind, Desk.run_shared, Desk.run_setShared]
          rw [show ((d.looked [a, b, m, hi, lo]).took (d.rx.toList.take n) (d.rx.read n).2).pool = d.pool from rfl]
          cases hp : (e.process d.pool (d.rx.toList.take n)).2.2 with
          | error f =>
            refine ⟨_, _, _, rfl, ?_⟩
            rw [← hacc]
            exact htaken _ _ (by simp)
          | ok u =>
            refine ⟨_, _, _, rfl, ?_⟩
            rw [← hacc]
            exact htaken _ _ (by simp)
  · refine ⟨e, .ok false, d.looked (d.rx.toList.take 5), ?_, .waits ?_ ?_⟩
    · split
      · rename_i h
        exact absurd h (hc _ _ _ _ _)
      · rfl
    · rw [Wire.next?, ha]
      rfl
    · rintro ⟨n, hn, -⟩
      rw [ha] at hn
      cases hn

end Conduit.Tls.Sized
