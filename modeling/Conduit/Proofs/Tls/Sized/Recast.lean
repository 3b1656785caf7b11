import Conduit.Tls.Sized.Engine

/-!
# What an answer does not look at

The answers of a sized engine add records to its queue and never look at what is queued already. Nor do they look at
plaintext that waits to be read. So a change of the queue that keeps its end open, or of the plaintext, can be made
before an answer or after it.

* `Recast`: such a change.
* `Turn.Tame`: an answer that a change does not disturb, with one rule for each way in which answers are put together.
* `Serving.onHello_tame`, `Asking.onHello_tame` and their like: the answers to all messages.
* `Intake.onRecord_tame`: the answer to a record.
-/

namespace Conduit.Tls.Sized

/-- A change of an engine's queue and of its plaintext. Whether a record is queued before the change or after it makes
no difference. -/
structure Recast where
  out : List Bytes → List Bytes
  plain : Bytes → Bytes
  adds : ∀ l r, r ≠ [] → out (l ++ [r]) = out l ++ [r]

namespace Recast

/-- An engine after the change. -/
def engine (c : Recast) (e : Engine) : Engine := { e with out := c.out e.out, plain := c.plain e.plain }

/-- A seat after the change. -/
def seat (c : Recast) (s : Seat) : Seat := { s with engine := c.engine s.engine }

end Recast

/-! ## Queueing -/

theorem Wire.record_ne_nil (type : UInt8) (body : Bytes) : Wire.record type body ≠ [] := List.cons_ne_nil _ _

theorem Wire.sealed_ne_nil (p : Wire.Protection) (type : UInt8) (data : Bytes) : Wire.sealed p type data ≠ [] := by
  unfold Wire.sealed
  dsimp only
  split
  · exact record_ne_nil _ _
  · exact record_ne_nil _ _

namespace Recast

variable (c : Recast)

theorem engine_send (e : Engine) (type : UInt8) (data : Bytes) :
    (c.engine e).send type data = c.engine (e.send type data) := by
  unfold Engine.send
  by_cases h : e.sealing
  · rw [if_pos (show (c.engine e).sealing from h), if_pos h]
    simp only [engine, c.adds _ _ (Wire.sealed_ne_nil _ _ _)]
    rfl
  · rw [if_neg (show ¬ (c.engine e).sealing from h), if_neg h]
    simp only [engine, c.adds _ _ (Wire.record_ne_nil _ _)]

theorem engine_foldl_send (type : UInt8) (pieces : List Bytes) (e : Engine) :
    pieces.foldl (fun e piece => e.send type piece) (c.engine e) =
      c.engine (pieces.foldl (fun e piece => e.send type piece) e) := by
  induction pieces generalizing e with
  | nil => rfl
  | cons piece rest ih => simp only [List.foldl_cons, engine_send, ih]

theorem engine_sendAll (e : Engine) (type : UInt8) (data : Bytes) :
    (c.engine e).sendAll type data = c.engine (e.sendAll type data) := c.engine_foldl_send ..

theorem engine_note (e : Engine) (messages : Bytes) : (c.engine e).note messages = c.engine (e.note messages) := rfl

theorem engine_say (e : Engine) (messages : Bytes) : (c.engine e).say messages = c.engine (e.say messages) :=
  by
  unfold Engine.say
  rw [engine_note, engine_sendAll]

theorem engine_announce (e : Engine) : (c.engine e).announce = c.engine e.announce := by
  simp only [Engine.announce, engine, c.adds _ _ (Wire.record_ne_nil _ _)]

theorem engine_give (e : Engine) (a : Alert) : (c.engine e).give a = c.engine (e.give a) := by
  unfold Engine.give
  rw [engine_send]
  rfl

theorem engine_begin (e : Engine) : (c.engine e).begin = c.engine e.begin := by
  have h : ∀ (l : List Bytes) (e : Engine), l.foldl (fun e data => e.sendAll 23 data) (c.engine e) =
      c.engine (l.foldl (fun e data => e.sendAll 23 data) e) := by
    intro l
    induction l with
    | nil => exact fun _ => rfl
    | cons data l ih =>
      intro e
      simp only [List.foldl_cons, engine_sendAll, ih]
  exact h e.early { e with stage := .traffic, early := [] }

end Recast

/-! ## How answers are put together -/

namespace Turn

/-- An answer does the same after a change, up to the change. -/
structure Tame {α : Type} (c : Recast) (p : Turn α) : Prop where
  run : ∀ s, p.run.run (c.seat s) = ((p.run.run s).1, c.seat (p.run.run s).2)

variable {α β : Type} {c : Recast}

theorem run_bind (p : Turn α) (f : α → Turn β) (s : Seat) :
    (p >>= f).run.run s =
      match p.run.run s with
      | (.ok a, s') => (f a).run.run s'
      | (.error x, s') => (.error x, s') := by
  simp only [ExceptT.run_bind, StateT.run_bind]
  rcases p.run.run s with ⟨x | a, s'⟩ <;> rfl

theorem Tame.pure (a : α) : Tame c (pure a : Turn α) := ⟨fun _ => rfl⟩

theorem Tame.throw (f : Failure) : Tame c (throw f : Turn α) := ⟨fun _ => rfl⟩

theorem Tame.bind {p : Turn α} {f : α → Turn β} (hp : Tame c p) (hf : ∀ a, Tame c (f a)) : Tame c (p >>= f) where
  run s := by
    rw [run_bind, run_bind, hp.run s]
    rcases p.run.run s with ⟨x | a, s'⟩
    · rfl
    · exact (hf a).run s'

/-- What is read of the engine is the same after the change. -/
theorem Tame.engine {k : Engine → Turn α} (hk : ∀ e, Tame c (k e)) (h : ∀ e, k (c.engine e) = k e) :
    Tame c (Turn.engine >>= k) where
  run s := by
    rw [run_bind, run_bind]
    change (k (c.engine s.engine)).run.run (c.seat s) = _
    rw [h, (hk _).run]
    rfl

theorem Tame.change {f : Engine → Engine} (h : ∀ e, f (c.engine e) = c.engine (f e)) : Tame c (change f) where
  run s := by
    change ((Except.ok (), { s with engine := f (c.engine s.engine) }) : Except Failure Unit × Seat) = _
    rw [h]
    rfl

theorem Tame.remember (f : Talk → Talk) : Tame c (remember f) := .change fun _ => rfl

theorem Tame.await (stage : Stage) : Tame c (await stage) := .change fun _ => rfl

theorem Tame.share (f : Pool → α × Pool) : Tame c (share f) := ⟨fun _ => rfl⟩

theorem Tame.fresh (size : Nat) : Tame c (fresh size) := .share _

theorem Tame.refuse (a : Alert) (f : Failure) : Tame c (refuse a f : Turn α) :=
  .bind (.change fun e => c.engine_give e a) fun _ => .throw f

theorem Tame.corrupt (x : Corruption) : Tame c (corrupt x : Turn α) := .refuse ..

theorem Tame.misbehaved (a : Alert) (how : String) : Tame c (misbehaved a how : Turn α) := .refuse ..

theorem Tame.incompatible (a : Alert) (how : String) : Tame c (incompatible a how : Turn α) := .refuse ..

theorem Tame.unexpected (got expected : String) : Tame c (unexpected got expected : Turn α) := .refuse ..

theorem Tame.ite {p q : Turn α} {P : Prop} [Decidable P] (hp : Tame c p) (hq : Tame c q) :
    Tame c (if P then p else q) := by
  split
  · exact hp
  · exact hq

/-- A check that may refuse, and what comes after it. -/
theorem Tame.check {P : Prop} [Decidable P] {p : Turn Unit} {k : Unit → Turn α} (hp : Tame c p)
    (hk : ∀ a, Tame c (k a)) : Tame c (if P then p >>= k else k ()) :=
  .ite (.bind hp hk) (hk ())

theorem Tame.settled : Tame c settled :=
  .engine (fun _ => .ite (.misbehaved ..) (.pure _)) fun _ => rfl

end Turn

/-! ## The server's answers -/

namespace Serving

open Turn

variable {c : Recast}

theorem domainOf_tame (h : ClientHello) : Tame c (domainOf h) := by
  unfold domainOf
  split
  · exact .pure _
  · exact .misbehaved ..
  · exact .pure _
  · exact .pure _

theorem noteDomain_tame (h : ClientHello) : Tame c (noteDomain h) := by
  refine .bind (domainOf_tame h) fun domain => .engine (fun e => ?_) fun _ => rfl
  exact .ite (.change fun _ => rfl) (.ite (.throw _) (.pure _))

theorem chooseVersion_tame (h : ClientHello) : Tame c (chooseVersion h) := by
  refine .engine (fun e => ?_) fun _ => rfl
  dsimp only
  split
  · exact .ite (.pure _) (.ite (.pure _) (.incompatible ..))
  · exact .ite (.incompatible ..) (.ite (.pure _) (.incompatible ..))

theorem chooseSuite_tame (h : ClientHello) (v : Version) : Tame c (chooseSuite h v) := by
  refine .engine (fun e => ?_) fun _ => rfl
  split
  · exact .incompatible ..
  · split
    · exact .incompatible ..
    · exact .check (.misbehaved ..) fun _ => .pure _

theorem chooseProtocol_tame (h : ClientHello) : Tame c (chooseProtocol h) := by
  refine .engine (fun e => ?_) fun _ => rfl
  split
  · exact .refuse ..
  · exact .change fun _ => rfl

theorem agreeOnCertificate_tame (h : ClientHello) (code : Nat) : Tame c (agreeOnCertificate h code) :=
  .ite (.pure _) (.ite (.incompatible ..) (.pure _))

theorem agreedExtensions_tame (h : ClientHello) : Tame c (agreedExtensions h) :=
  .engine (fun _ => .bind (agreeOnCertificate_tame ..) fun _ => .bind (agreeOnCertificate_tame ..) fun _ => .pure _)
    fun _ => rfl

theorem ignoreEarly_tame (h : ClientHello) : Tame c (ignoreEarly h) := .change fun _ => rfl

theorem askAgain_tame (h : ClientHello) (suite : Suite) (group : Group) : Tame c (askAgain h suite group) := by
  refine .bind (.change fun e => ?_) fun _ => .bind (.remember _) fun _ => ignoreEarly_tame h
  rw [c.engine_say, c.engine_announce]

theorem redeemFirst_tame (suite : Suite) (opening : Bytes) (i : Nat) (l : List (Bytes × Bytes)) :
    Tame c (redeemFirst suite opening i l) := by
  induction l generalizing i with
  | nil => exact .pure _
  | cons x rest ih =>
    refine .engine (fun e => .bind (.share _) fun y => ?_) fun _ => rfl
    split
    · exact ih _
    · exact .ite (ih _) (.ite (.misbehaved ..) (.pure _))

theorem redeemOffer_tame (h : ClientHello) (whole : Bytes) (suite : Suite) : Tame c (redeemOffer h whole suite) := by
  refine .bind (.remember _) fun _ => ?_
  split
  · exact .engine (fun e => .ite (.misbehaved ..) (.pure _)) fun _ => rfl
  · exact .ite (.misbehaved ..) (.ite (.misbehaved ..) (.bind (redeemFirst_tame ..) fun _ => .pure _))

theorem sendSealedFlight_tame (h : ClientHello) (schemes : List Nat) : Tame c (sendSealedFlight h schemes) := by
  refine .bind (chooseProtocol_tame h) fun _ => .bind (agreedExtensions_tame h) fun extensions =>
    .engine (fun e => ?_) fun _ => rfl
  extract_lets agreed send
  have hsend : ∀ proven, Tame c (send proven) := by
    refine fun proven => .change fun e => ?_
    change { (c.engine (e.note _)).sendAll 22 _ with unsealing := true, stage := .clientFinished } = _
    rw [c.engine_sendAll]
    rfl
  refine .ite (.bind (.pure _) hsend) ?_
  split
  · exact .bind (.incompatible ..) hsend
  · exact .bind (.pure _) hsend

theorem answerNewer_tame (h : ClientHello) (whole : Bytes) (suite : Suite) (group : Group) (schemes : List Nat) :
    Tame c (answerNewer h whole suite group schemes) := by
  refine .engine (fun e => .check (.misbehaved ..) fun _ => ?_) fun _ => rfl
  split
  · exact .incompatible ..
  · refine .check (.misbehaved ..) fun _ => .check (.misbehaved ..) fun _ => .check (.misbehaved ..) fun _ => ?_
    split
    · exact .bind (.change fun _ => rfl) fun _ => .check (.misbehaved ..) fun _ => askAgain_tame ..
    · refine .bind (redeemOffer_tame ..) fun ticket => .bind (.change fun _ => rfl) fun _ =>
        .bind (.fresh _) fun _ => ?_
      extract_lets half
      split
      · exact .misbehaved ..
      · refine .bind (.fresh _) fun _ => .bind .settled fun _ => .bind (.remember _) fun _ =>
          .bind (.change fun e => c.engine_say ..) fun _ => .check (.change fun e => c.engine_announce e) fun _ =>
          .bind (.change fun _ => rfl) fun _ => .bind (sendSealedFlight_tame ..) fun _ => ignoreEarly_tame h

theorem leaveTicket_tame : Tame c leaveTickets.leaveTicket :=
  .engine (fun _ => .bind (.fresh _) fun _ => .bind (.share _) fun _ => .bind (.fresh _) fun _ =>
    .bind (.fresh _) fun _ => .pure _) fun _ => rfl

theorem leaveTickets_tame : Tame c leaveTickets :=
  .engine (fun _ => .ite (.bind leaveTicket_tame fun _ => .bind leaveTicket_tame fun _ =>
    .change fun _ => c.engine_sendAll ..) (.pure _)) fun _ => rfl

theorem answerOlder_tame (h : ClientHello) (whole : Bytes) (suite : Suite) (group : Group) (schemes : List Nat) :
    Tame c (answerOlder h whole suite group schemes) := by
  refine .bind (.change fun _ => rfl) fun _ => .check (.incompatible ..) fun _ => .bind (.fresh _) fun _ =>
    .engine (fun e => .check (.incompatible ..) fun _ => ?_) fun _ => rfl
  extract_lets ticketOffered renegotiation answer
  have hanswer : ∀ id, Tame c (answer id) := by
    refine fun id => .bind (chooseProtocol_tame h) fun _ => .bind (agreedExtensions_tame h) fun _ =>
      .bind (.fresh _) fun _ => ?_
    extract_lets half parameters
    split
    · exact .throw _
    · exact .bind (.remember _) fun _ => .bind (.change fun e => c.engine_say ..) fun _ => .await _
  exact .ite (.bind (.fresh _) hanswer) (.bind (.pure _) hanswer)

theorem onKeyExchange_tame (body whole : Bytes) : Tame c (onKeyExchange body whole) := by
  refine .bind (.change fun _ => rfl) fun _ => .engine (fun e => ?_) fun _ => rfl
  split
  · exact .throw _
  · refine .check (.corrupt _) fun _ => ?_
    split
    · exact .misbehaved ..
    · exact .change fun _ => rfl

theorem onHello_tame (h : ClientHello) (whole : Bytes) : Tame c (onHello h whole) := by
  refine .check (.incompatible ..) fun _ => .bind .settled fun _ => .bind (noteDomain_tame h) fun _ => ?_
  split
  · exact .incompatible ..
  · refine .bind (chooseVersion_tame h) fun v => .bind (.change fun _ => rfl) fun _ =>
      .bind (chooseSuite_tame h v) fun x => .bind (.change fun _ => rfl) fun _ => ?_
    cases v with
    | newer => exact answerNewer_tame ..
    | older => exact answerOlder_tame ..

theorem onFinished_tame (proof whole : Bytes) : Tame c (onFinished proof whole) := by
  refine .bind .settled fun _ => .engine (fun e => .check (.refuse ..) fun _ =>
    .bind (.change fun _ => rfl) fun _ => ?_) fun _ => rfl
  refine .ite (.bind leaveTickets_tame fun _ => .change fun e => c.engine_begin e) (.check (.share _) fun _ => ?_)
  refine .bind (.change fun e => ?_) fun _ => .bind (.change fun e => ?_) fun _ => .change fun e => c.engine_begin e
  · rw [c.engine_announce]
    rfl
  · exact c.engine_say ..

end Serving

/-! ## The client's answers -/

namespace Asking

open Turn

variable {c : Recast}

theorem ownHello_tame : Tame c ownHello := by
  refine .engine (fun e => ?_) fun _ => rfl
  split
  · exact .pure _
  · exact .throw _

theorem onRetry_tame (h : ServerHello) (whole : Bytes) : Tame c (onRetry h whole) := by
  refine .bind .settled fun _ => .engine (fun e => .bind ownHello_tame fun own => ?_) fun _ => rfl
  extract_lets group cookie wrong
  have hwrong : ∀ {α : Type} (how : String), Tame c (wrong how : Turn α) := fun _ => .misbehaved ..
  clear_value group cookie
  refine .check (hwrong _) fun _ => .check (hwrong _) fun _ => .check (hwrong _) fun _ => .check (hwrong _) fun _ =>
    .bind (.change fun _ => rfl) fun _ => ?_
  split
  · exact hwrong _
  · refine .check (.misbehaved ..) fun _ => .bind (.change fun _ => rfl) fun _ => ?_
    extract_lets x ask
    have hask : ∀ g, Tame c (ask g) := fun g =>
      .bind (.remember _) fun _ => .bind (.change fun _ => rfl) fun _ =>
        .bind (.change fun e => c.engine_announce e) fun _ => .change fun e => c.engine_say ..
    split
    · exact .bind (.pure _) hask
    · refine .ite (.bind (.pure _) hask) ?_
      split
      · exact .bind (hwrong _) hask
      · exact .bind (.fresh _) fun _ => .bind (.pure _) hask

theorem chosenVersion_tame (h : ServerHello) : Tame c (chosenVersion h) := by
  refine .engine (fun e => ?_) fun _ => rfl
  exact .ite (.ite (.pure _) (.incompatible ..)) (.ite (.ite (.misbehaved ..) (.pure _)) (.incompatible ..))

theorem noteProtocol_tame (l : List Extension) : Tame c (noteProtocol l) :=
  .bind (.change fun _ => rfl) fun _ => .engine (fun _ => .ite (.misbehaved ..) (.pure _)) fun _ => rfl

theorem goOnNewer_tame (h : ServerHello) (suite : Suite) : Tame c (goOnNewer h suite) := by
  refine .engine (fun e => .check (.misbehaved ..) fun _ => ?_) fun _ => rfl
  split
  · exact .misbehaved ..
  · refine .check (.misbehaved ..) fun _ => ?_
    extract_lets go
    have hgo : ∀ resumed, Tame c (go resumed) := by
      intro resumed
      simp only [go]
      split
      · exact .misbehaved ..
      · exact .bind .settled fun _ => .bind (.remember _) fun _ =>
          .check (.change fun e => c.engine_announce e) fun _ => .change fun _ => rfl
    split
    · exact .ite (.bind (.misbehaved ..) hgo) (.ite (.bind (.misbehaved ..) hgo) (.bind (.pure _) hgo))
    · exact .bind (.pure _) hgo

theorem goOnOlder_tame (h : ServerHello) : Tame c (goOnOlder h) :=
  .engine (fun _ => .bind ownHello_tame fun _ => .check (.misbehaved ..) fun _ => .check (.misbehaved ..) fun _ =>
    .bind (.remember _) fun _ => .await _) fun _ => rfl

theorem onHello_tame (h : ServerHello) (whole : Bytes) : Tame c (onHello h whole) := by
  refine .bind (chosenVersion_tame h) fun v => .check (.misbehaved ..) fun _ => .bind ownHello_tame fun own =>
    .check (.misbehaved ..) fun _ => .bind (.change fun _ => rfl) fun _ => .check (noteProtocol_tame _) fun _ =>
    .check (.misbehaved ..) fun _ => ?_
  split
  · exact .misbehaved ..
  · refine .check (.misbehaved ..) fun _ => .engine (fun e => .check (.misbehaved ..) fun _ =>
      .bind (.change fun _ => rfl) fun _ => ?_) fun _ => rfl
    cases v with
    | newer => exact goOnNewer_tame ..
    | older => exact goOnOlder_tame h

theorem distrust_tame {α : Type} (d : Trust.Distrust) : Tame c (distrust d : Turn α) := by
  unfold distrust
  split
  · exact .refuse ..
  · exact .throw _

theorem judge_tame : Tame c judge := by
  refine .engine (fun e => ?_) fun _ => rfl
  split
  · exact .throw _
  · split
    · exact .pure _
    · exact distrust_tame _

theorem checkSignature_tame (x : Trust.Certificate) (newer : Bool) (scheme : Nat) (parts : List Bytes)
    (signature : Bytes) : Tame c (checkSignature x newer scheme parts signature) := by
  unfold checkSignature
  split
  · exact .misbehaved ..
  · refine .ite (.misbehaved ..) ?_
    extract_lets ways
    split
    · exact .pure _
    · exact distrust_tame _

theorem onExtensions_tame (l : List Extension) (whole : Bytes) : Tame c (onExtensions l whole) :=
  .bind (.change fun _ => rfl) fun _ => .bind (noteProtocol_tame l) fun _ => .engine (fun _ => .await _) fun _ => rfl

theorem onTicket_tame (id : Bytes) : Tame c (onTicket id) :=
  .engine (fun _ => .ite (.share _) (.pure _)) fun _ => rfl

theorem onSignature_tame (scheme : Nat) (signature whole : Bytes) : Tame c (onSignature scheme signature whole) :=
  .bind judge_tame fun _ => .engine (fun _ => .bind (checkSignature_tame ..) fun _ =>
    .bind (.change fun _ => rfl) fun _ => .await _) fun _ => rfl

theorem onKeyExchange_tame (body whole : Bytes) : Tame c (onKeyExchange body whole) := by
  refine .bind (.change fun _ => rfl) fun _ => ?_
  split
  · exact .bind (.remember _) fun _ => .await _
  · exact .corrupt _

theorem onHelloDone_tame (whole : Bytes) : Tame c (onHelloDone whole) := by
  refine .bind (.change fun _ => rfl) fun _ => .bind .settled fun _ => .bind judge_tame fun x =>
    .engine (fun e => ?_) fun _ => rfl
  split
  · exact .corrupt _
  · refine .check (.misbehaved ..) fun _ => .bind (checkSignature_tame ..) fun _ =>
      .check (.change fun e => c.engine_say ..) fun _ => ?_
    split
    · exact .misbehaved ..
    · refine .bind (.fresh _) fun _ => ?_
      extract_lets half
      refine .bind (.change fun e => c.engine_say ..) fun _ => ?_
      split
      · exact .misbehaved ..
      · refine .bind (.change fun e => ?_) fun _ => .bind (.change fun e => c.engine_say ..) fun _ => .await _
        rw [c.engine_announce]
        rfl

theorem onFinished_tame (proof whole : Bytes) : Tame c (onFinished proof whole) := by
  refine .bind .settled fun _ => .engine (fun e => .check (.refuse ..) fun _ =>
    .bind (.change fun _ => rfl) fun _ => ?_) fun _ => rfl
  have hbegin : Tame c (change (·.begin)) := .change fun e => c.engine_begin e
  exact .ite (.bind (.change fun e => c.engine_say ..) fun _ => .check (.share _) fun _ => hbegin) hbegin

end Asking

/-! ## Records -/

namespace Intake

open Turn

variable {c : Recast}

theorem misplaced_tame (m : Message) : Tame c (misplaced m) := by
  refine .engine (fun e => ?_) fun _ => rfl
  split
  · exact .unexpected ..
  · exact .refuse ..

theorem onCertificate_tame (chain : List Bytes) (whole : Bytes) : Tame c (onCertificate chain whole) :=
  .bind (.change fun _ => rfl) fun _ => .bind (.remember _) fun _ => .engine (fun _ => .await _) fun _ => rfl

theorem onCertificateRequest_tame (whole : Bytes) : Tame c (onCertificateRequest whole) :=
  .bind (.change fun _ => rfl) fun _ => .remember _

theorem onMessage_tame (m : Message) (whole : Bytes) : Tame c (onMessage m whole) := by
  refine .engine (fun e => ?_) fun _ => rfl
  split
  · exact Serving.onHello_tame ..
  · exact Serving.onKeyExchange_tame ..
  · exact Serving.onFinished_tame ..
  · exact Asking.onHello_tame ..
  · exact .ite (Asking.onRetry_tame ..) (misplaced_tame _)
  · exact Asking.onExtensions_tame ..
  · exact onCertificate_tame ..
  · exact Asking.onSignature_tame ..
  · exact .bind (.change fun _ => rfl) fun _ => .await _
  · exact Asking.onKeyExchange_tame ..
  · exact Asking.onKeyExchange_tame ..
  · exact .ite (misplaced_tame _) (onCertificateRequest_tame _)
  · exact Asking.onHelloDone_tame _
  · exact .bind (.change fun _ => rfl) fun _ => .await _
  · exact .ite (Serving.onFinished_tame ..) (Asking.onFinished_tame ..)
  · exact .ite (Asking.onTicket_tame _) (misplaced_tame _)
  · exact misplaced_tame _

theorem answerAll_tame (newer : Bool) (left : Bytes) (l : List Bytes) : Tame c (answerAll newer left l) := by
  induction l with
  | nil => exact .pure _
  | cons whole others ih =>
    refine .bind (.change fun _ => rfl) fun _ => ?_
    split
    · exact .bind (.corrupt _) fun _ => ih
    · exact .bind (onMessage_tame ..) fun _ => ih

theorem onHandshake_tame (newer : Bool) (data : Bytes) : Tame c (onHandshake newer data) :=
  .engine (fun _ => .bind (.change fun _ => rfl) fun _ => .check (.throw _) fun _ => answerAll_tame ..) fun _ => rfl

theorem onAlert_tame (data : Bytes) : Tame c (onAlert data) := by
  refine .engine (fun e => ?_) fun _ => rfl
  dsimp only
  split
  · exact .corrupt _
  · exact .corrupt _
  · exact .ite (.refuse ..) (.ite (.change fun _ => rfl) (.ite (.throw _) (.ite (.throw _)
      (.bind (.change fun _ => rfl) fun _ => .ite (.refuse ..) (.pure _)))))
  · exact .corrupt _

theorem onChange_tame (data : Bytes) : Tame c (onChange data) :=
  .engine (fun _ => .ite (.ite (.misbehaved ..) (.ite (.throw _) (.change fun _ => rfl)))
    (.ite (.corrupt _) (.ite (.corrupt _) (.ite (.change fun _ => rfl) (.unexpected ..))))) fun _ => rfl

theorem passOver_tame (size : Nat) : Tame c (passOver size) := by
  refine .engine (fun e => ?_) fun _ => rfl
  split
  · exact .pure _
  · exact .ite (.pure _) (.bind (.change fun _ => rfl) fun _ => .pure _)

theorem noteEmpty_tame (data : Bytes) : Tame c (noteEmpty data) :=
  .ite (.change fun _ => rfl) (.engine (fun _ => .ite (.change fun _ => rfl) (.throw _)) fun _ => rfl)

theorem passOverAgain_tame (sizes : List Nat) : Tame c (passOverAgain sizes) := by
  induction sizes with
  | nil => exact .pure _
  | cons size rest ih => exact .bind (passOver_tame size) fun _ => .ite ih (.refuse ..)

/-- Plaintext is only ever added to. -/
theorem onPlaintext_tame (data : Bytes) (hc : ∀ b, c.plain (b ++ data) = c.plain b ++ data) :
    Tame c (onPlaintext data) := by
  refine .engine (fun e => .ite (.change fun e => ?_) ?_) fun _ => rfl
  · simp only [Recast.engine, hc]
  · exact .bind (passOver_tame _) fun _ => .ite (.unexpected ..) (.pure _)

theorem onContent_tame (newer : Bool) (type : UInt8) (data : Bytes)
    (hc : ∀ b, c.plain (b ++ data) = c.plain b ++ data) : Tame c (onContent newer type data) := by
  refine .bind (noteEmpty_tame _) fun _ => .ite (onHandshake_tame ..) (.engine (fun _ => .ite (.throw _)
    (.bind (.change fun _ => rfl) fun _ => ?_)) fun _ => rfl)
  split
  · exact onChange_tame _
  · exact onAlert_tame _
  · exact onPlaintext_tame _ hc
  · exact .corrupt _

theorem onRecord_tame (whole : Bytes) (hc : ∀ b d, c.plain (b ++ d) = c.plain b ++ d) : Tame c (onRecord whole) := by
  refine .engine (fun e => .bind (passOverAgain_tame _) fun _ => .engine (fun e => ?_) fun _ => rfl) fun _ => rfl
  extract_lets type version body
  split
  · exact .corrupt _
  · refine .ite (.bind (.change fun _ => rfl) fun _ => onContent_tame _ _ _ (hc · _)) ?_
    split
    · exact .bind (passOver_tame _) fun _ => .ite (.change fun _ => rfl) (.refuse ..)
    · exact .bind (.change fun _ => rfl) fun _ => onContent_tame _ _ _ (hc · _)

end Intake

end Conduit.Tls.Sized
