import Conduit.Proofs.Tls.Sized.Recast

/-!
# The inputs of an engine

What an engine makes of its inputs, apart from what it sends: `Engine.after` tells it one input after the other.

* `Turn.Stays`, `Turn.Quiet`: no record brings a handshake back, and none yields plaintext before it is complete.
* `Input`, `Engine.after`: an engine that sends nothing, so that its queue holds all ciphertext it has made.
* `Recast.engine_tell`: the inputs do the same whatever is queued. `Engine.tell_quiet`: they keep an engine quiet.
-/

namespace Conduit.Tls.Sized

/-! ## The end of the handshake -/

namespace Turn

variable {α β : Type}

/-- What no change of plaintext disturbs leaves plaintext alone. -/
theorem plain_eq {p : Turn α} (h : ∀ c, Tame c p) (s : Seat) : (p.run.run s).2.engine.plain = s.engine.plain := by
  have := (h ⟨id, fun _ => s.engine.plain, fun _ _ _ => rfl⟩).run s
  exact congrArg (fun x => x.2.engine.plain) this

/-- An answer that does not go back behind the handshake. -/
structure Stays (p : Turn α) : Prop where
  run : ∀ s, s.engine.stage = .traffic → (p.run.run s).2.engine.stage = .traffic

theorem Stays.pure (a : α) : Stays (pure a : Turn α) := ⟨fun _ h => h⟩

theorem Stays.throw (f : Failure) : Stays (throw f : Turn α) := ⟨fun _ h => h⟩

theorem Stays.bind {p : Turn α} {f : α → Turn β} (hp : Stays p) (hf : ∀ a, Stays (f a)) : Stays (p >>= f) where
  run s h := by
    have hs := hp.run s h
    rw [run_bind]
    rcases hq : p.run.run s with ⟨x | a, s'⟩
    · simpa [hq] using hs
    · rw [hq] at hs
      exact (hf a).run s' hs

theorem Stays.engine {k : Engine → Turn α} (hk : ∀ e, e.stage = .traffic → Stays (k e)) :
    Stays (Turn.engine >>= k) where
  run s h := by
    rw [run_bind]
    exact (hk s.engine h).run s h

theorem Stays.change {f : Engine → Engine} (h : ∀ e, (f e).stage = e.stage) : Stays (change f) where
  run s hs := (h s.engine).trans hs

theorem Stays.ite {p q : Turn α} {P : Prop} [Decidable P] (hp : Stays p) (hq : Stays q) :
    Stays (if P then p else q) := by
  split
  · exact hp
  · exact hq

theorem Stays.share (f : Pool → α × Pool) : Stays (share f) := ⟨fun _ h => h⟩

theorem Stays.refuse (a : Alert) (f : Failure) : Stays (refuse a f : Turn α) := by
  refine .bind (.change fun e => ?_) fun _ => .throw f
  unfold Engine.give Engine.send
  split <;> rfl

end Turn

namespace Intake

open Turn

theorem misplaced_stays (m : Message) : Stays (misplaced m) := by
  refine .engine fun e _ => ?_
  split
  · exact .refuse ..
  · exact .refuse ..

/-- Once the handshake is complete, no message begins it anew. -/
theorem onMessage_stays (m : Message) (whole : Bytes) : Stays (onMessage m whole) := by
  refine .engine fun e he => ?_
  rw [he]
  cases m with
  | ticket id =>
    exact .ite (.engine fun _ _ => .ite (.share _) (.pure _)) (misplaced_stays _)
  | _ => exact misplaced_stays _

theorem answerAll_stays (newer : Bool) (left : Bytes) (l : List Bytes) : Stays (answerAll newer left l) := by
  induction l with
  | nil => exact .pure _
  | cons whole others ih =>
    refine .bind (.change fun _ => rfl) fun _ => ?_
    split
    · exact .bind (.refuse ..) fun _ => ih
    · exact .bind (onMessage_stays ..) fun _ => ih

theorem onHandshake_stays (newer : Bool) (data : Bytes) : Stays (onHandshake newer data) :=
  .engine fun _ _ => .bind (.change fun _ => rfl) fun _ =>
    .ite (.bind (.throw _) fun _ => answerAll_stays ..) (answerAll_stays ..)

theorem onAlert_stays (data : Bytes) : Stays (onAlert data) := by
  refine .engine fun e _ => ?_
  split
  · exact .refuse ..
  · exact .refuse ..
  · exact .ite (.refuse ..) (.ite (.change fun _ => rfl) (.ite (.throw _) (.ite (.throw _)
      (.bind (.change fun _ => rfl) fun _ => .ite (.refuse ..) (.pure _)))))
  · exact .refuse ..

theorem onChange_stays (data : Bytes) : Stays (onChange data) := by
  refine .engine fun e he => ?_
  refine .ite (.ite (.refuse ..) (.ite (.throw _) (.change fun _ => rfl))) (.ite (.refuse ..) (.ite (.refuse ..) ?_))
  rw [if_neg (by rw [he]; exact fun h => nomatch h)]
  exact .refuse ..

theorem passOver_stays (size : Nat) : Stays (passOver size) := by
  refine .engine fun e _ => ?_
  split
  · exact .pure _
  · exact .ite (.pure _) (.bind (.change fun _ => rfl) fun _ => .pure _)

theorem noteEmpty_stays (data : Bytes) : Stays (noteEmpty data) :=
  .ite (.change fun _ => rfl) (.engine fun _ _ => .ite (.change fun _ => rfl) (.throw _))

theorem passOverAgain_stays (sizes : List Nat) : Stays (passOverAgain sizes) := by
  induction sizes with
  | nil => exact .pure _
  | cons size rest ih => exact .bind (passOver_stays size) fun _ => .ite ih (.refuse ..)

end Intake

/-! ## No plaintext before the end of the handshake -/

/-- An engine holds no plaintext before the handshake is complete. -/
def Engine.Quiet (e : Engine) : Prop := e.stage ≠ .traffic → e.plain = []

namespace Turn

variable {α β : Type}

/-- An answer that leaves an engine quiet. -/
structure Quiet (p : Turn α) : Prop where
  run : ∀ s, s.engine.Quiet → (p.run.run s).2.engine.Quiet

theorem Quiet.of_stays {p : Turn α} (h : ∀ c, Tame c p) (hs : Stays p) : Quiet p where
  run s hq := by
    intro ht
    rw [plain_eq h]
    exact hq fun h => ht (hs.run s h)

theorem Quiet.bind {p : Turn α} {f : α → Turn β} (hp : Quiet p) (hf : ∀ a, Quiet (f a)) : Quiet (p >>= f) where
  run s h := by
    have hs := hp.run s h
    rw [run_bind]
    rcases hq : p.run.run s with ⟨x | a, s'⟩
    · simpa [hq] using hs
    · rw [hq] at hs
      exact (hf a).run s' hs

theorem Quiet.engine {k : Engine → Turn α} (hk : ∀ e, Quiet (k e)) : Quiet (Turn.engine >>= k) where
  run s h := by
    rw [run_bind]
    exact (hk s.engine).run s h

theorem Quiet.ite {p q : Turn α} {P : Prop} [Decidable P] (hp : Quiet p) (hq : Quiet q) :
    Quiet (if P then p else q) := by
  split
  · exact hp
  · exact hq

theorem Quiet.change {f : Engine → Engine} (h : ∀ e, (f e).stage = e.stage) (hp : ∀ e, (f e).plain = e.plain) :
    Quiet (change f) where
  run s hs := by
    intro ht
    exact (hp s.engine).trans (hs fun h' => ht ((h s.engine).trans h'))

theorem Quiet.throw (f : Failure) : Quiet (throw f : Turn α) := ⟨fun _ h => h⟩

theorem Quiet.refuse (a : Alert) (f : Failure) : Quiet (refuse a f : Turn α) :=
  .of_stays (fun _ => .refuse ..) (.refuse ..)

end Turn

namespace Intake

open Turn

theorem onPlaintext_quiet (data : Bytes) : Quiet (onPlaintext data) where
  run s h := by
    unfold onPlaintext
    rw [run_bind]
    change ((if !s.engine.isHandshaking then _ else _ : Turn Unit).run.run s).2.engine.Quiet
    by_cases ht : s.engine.stage = .traffic
    · rw [if_pos (by simp [Engine.isHandshaking, ht])]
      exact fun h => absurd ht h
    · rw [if_neg (by simp [Engine.isHandshaking, ht])]
      have hk : Quiet (do if s.engine.stage ≠ .clientHello || !(← passOver data.length) then
          unexpected "ApplicationData" s.engine.expectation : Turn Unit) :=
        .of_stays (fun _ => .bind (passOver_tame _) fun _ => .ite (.unexpected ..) (.pure _))
          (.bind (passOver_stays _) fun _ => .ite (.refuse ..) (.pure _))
      exact hk.run s h

theorem onContent_quiet (newer : Bool) (type : UInt8) (data : Bytes) : Quiet (onContent newer type data) := by
  refine .bind (.of_stays (fun _ => noteEmpty_tame _) (noteEmpty_stays _)) fun _ =>
    .ite (.of_stays (fun _ => onHandshake_tame ..) (onHandshake_stays ..)) (.engine fun _ => .ite (.throw _)
    (.bind (.change (fun _ => rfl) fun _ => rfl) fun _ => ?_))
  split
  · exact .of_stays (fun _ => onChange_tame _) (onChange_stays _)
  · exact .of_stays (fun _ => onAlert_tame _) (onAlert_stays _)
  · exact onPlaintext_quiet _
  · exact .refuse ..

theorem onRecord_quiet (whole : Bytes) : Quiet (onRecord whole) := by
  refine .engine fun e => .bind (.of_stays (fun _ => passOverAgain_tame _) (passOverAgain_stays _)) fun _ =>
    .engine fun e => ?_
  extract_lets type version body
  split
  · exact .refuse ..
  · refine .ite (.bind (.change (fun _ => rfl) fun _ => rfl) fun _ => onContent_quiet ..) ?_
    split
    · refine .bind (.of_stays (fun _ => passOver_tame _) (passOver_stays _)) fun _ =>
        .ite (.change (fun _ => rfl) fun _ => rfl) (.refuse ..)
    · exact .bind (.change (fun _ => rfl) fun _ => rfl) fun _ => onContent_quiet ..

end Intake

/-! ## Inputs -/

/-- What is handed to an engine, asked of it and read from it, apart from sending. -/
inductive Input
  /-- A record is handed over, while the engines share `pool`. -/
  | take (pool : Pool) (record : Bytes)
  /-- Plaintext is read, at most `n` bytes. -/
  | read (n : Nat)
  | encrypt (data : Bytes)
  | closeNotify

/-- The record that is handed over. -/
def Input.record? : Input → Option Bytes
  | .take _ r => some r
  | .read _ | .encrypt _ | .closeNotify => none

namespace Engine

/-- An engine after a record was handed over; one that is more than it can hold is lost. -/
def accept (e : Engine) (v : Pool) (record : Bytes) : Engine :=
  if e.isFullFor record.length then { e with backlog := e.capacity } else (e.process v record).1

/-- An engine after an input. -/
def tell (e : Engine) : Input → Engine
  | .take v r => e.accept v r
  | .read n => { e with plain := e.plain.drop n }
  | .encrypt data => (encrypt e data).1
  | .closeNotify => closeNotify e

/-- An engine after some inputs: it sends nothing, so that its queue holds all ciphertext that it has made. -/
def after (e : Engine) (xs : List Input) : Engine := xs.foldl tell e

@[simp] theorem after_nil (e : Engine) : e.after [] = e := rfl

@[simp] theorem after_append (e : Engine) (xs ys : List Input) : e.after (xs ++ ys) = (e.after xs).after ys :=
  List.foldl_append ..

@[simp] theorem after_singleton (e : Engine) (x : Input) : e.after [x] = e.tell x := rfl

end Engine

/-- What a record has caused, from the answer to it: a failure is remembered. -/
def Seat.outcome : Except Failure Unit × Seat → Engine × Pool × Except Failure Unit
  | (.ok (), s) => (s.engine, s.pool, .ok ())
  | (.error f, s) => ({ s.engine with failure := some f }, s.pool, .error f)

/-- A record that is answered, if the engine has not failed. -/
def Engine.answer (e : Engine) (v : Pool) (record : Bytes) : Engine × Pool × Except Failure Unit :=
  match e.failure with
  | some f => (e, v, .error f)
  | none => Seat.outcome ((Intake.onRecord record).run.run ⟨e, v⟩)

theorem Engine.process_eq (e : Engine) (v : Pool) (record : Bytes) :
    e.process v record =
      if e.peerClosed then (e, v, .ok ()) else { e with backlog := e.backlog + record.length }.answer v record := rfl

namespace Recast

variable (c : Recast)

theorem engine_answer (hc : ∀ b d, c.plain (b ++ d) = c.plain b ++ d) (e : Engine) (v : Pool) (r : Bytes) :
    (c.engine e).answer v r = (c.engine (e.answer v r).1, (e.answer v r).2) := by
  unfold Engine.answer
  rw [show (c.engine e).failure = e.failure from rfl]
  cases e.failure with
  | some f => rfl
  | none =>
    have h := (Intake.onRecord_tame r hc).run ⟨e, v⟩
    dsimp only
    rw [show (⟨c.engine e, v⟩ : Seat) = c.seat ⟨e, v⟩ from rfl, h]
    rcases (Intake.onRecord r).run.run ⟨e, v⟩ with ⟨f | ⟨⟩, s⟩ <;> rfl

theorem engine_process (hc : ∀ b d, c.plain (b ++ d) = c.plain b ++ d) (e : Engine) (v : Pool) (r : Bytes) :
    (c.engine e).process v r = (c.engine (e.process v r).1, (e.process v r).2) := by
  rw [Engine.process_eq, Engine.process_eq, show (c.engine e).peerClosed = e.peerClosed from rfl]
  split
  · rfl
  · exact c.engine_answer hc { e with backlog := e.backlog + r.length } v r

theorem engine_encrypt (e : Engine) (data : Bytes) :
    encrypt (c.engine e) data = (c.engine (encrypt e data).1, (encrypt e data).2) := by
  unfold encrypt
  rw [show (c.engine e).failure = e.failure from rfl]
  cases e.failure with
  | some f => rfl
  | none =>
    dsimp only
    rw [show (c.engine e).isHandshaking = e.isHandshaking from rfl]
    split
    · rfl
    · rw [c.engine_sendAll]

theorem engine_closeNotify (e : Engine) : closeNotify (c.engine e) = c.engine (closeNotify e) := by
  unfold closeNotify
  rw [show (c.engine e).ended = e.ended from rfl]
  split
  · rfl
  · rw [c.engine_send]
    rfl

theorem engine_tell (hc : c.plain = id) (e : Engine) (x : Input) : (c.engine e).tell x = c.engine (e.tell x) := by
  cases x with
  | take v r =>
    simp only [Engine.tell, Engine.accept]
    rw [show (c.engine e).isFullFor r.length = e.isFullFor r.length from rfl]
    split
    · rfl
    · rw [c.engine_process (fun b d => by rw [hc]; rfl)]
  | read n => simp only [Engine.tell, engine, hc, id]
  | encrypt data => simp only [Engine.tell, engine_encrypt]
  | closeNotify => exact c.engine_closeNotify e

end Recast

namespace Engine

theorem answer_quiet {e : Engine} (h : e.Quiet) (v : Pool) (r : Bytes) : (e.answer v r).1.Quiet := by
  unfold answer
  split
  · exact h
  · have hq := (Intake.onRecord_quiet r).run ⟨e, v⟩ h
    rcases hx : (Intake.onRecord r).run.run ⟨e, v⟩ with ⟨f | ⟨⟩, s⟩
    · rw [hx] at hq
      exact hq
    · rw [hx] at hq
      exact hq

theorem process_quiet {e : Engine} (h : e.Quiet) (v : Pool) (r : Bytes) : (e.process v r).1.Quiet := by
  rw [process_eq]
  split
  · exact h
  · exact answer_quiet (e := { e with backlog := e.backlog + r.length }) h v r

theorem accept_quiet {e : Engine} (h : e.Quiet) (v : Pool) (r : Bytes) : (e.accept v r).Quiet := by
  unfold accept
  split
  · exact h
  · exact process_quiet h v r

theorem foldl_send_frame (type : UInt8) (pieces : List Bytes) (e : Engine) :
    (pieces.foldl (fun e piece => e.send type piece) e).stage = e.stage ∧
      (pieces.foldl (fun e piece => e.send type piece) e).plain = e.plain := by
  induction pieces generalizing e with
  | nil => exact ⟨rfl, rfl⟩
  | cons piece rest ih =>
    have hs : (e.send type piece).stage = e.stage ∧ (e.send type piece).plain = e.plain := by
      unfold send
      split <;> exact ⟨rfl, rfl⟩
    exact ⟨(ih _).1.trans hs.1, (ih _).2.trans hs.2⟩

theorem tell_quiet {e : Engine} (h : e.Quiet) (x : Input) : (e.tell x).Quiet := by
  cases x with
  | take v r => exact accept_quiet h v r
  | read n =>
    intro ht
    change e.plain.drop n = []
    rw [h ht, List.drop_nil]
  | encrypt data =>
    change (encrypt e data).1.Quiet
    unfold encrypt
    split
    · exact h
    · dsimp only
      split
      · exact h
      · obtain ⟨hs, hp⟩ := foldl_send_frame 23 (Wire.fragments data) e
        intro ht
        exact hp.trans (h fun h' => ht (hs.trans h'))
  | closeNotify =>
    change (closeNotify e).Quiet
    unfold closeNotify
    split
    · exact h
    · unfold send
      split <;> exact h

end Engine

end Conduit.Tls.Sized
