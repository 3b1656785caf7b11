import Conduit.Proofs.Tls.Contracts
import Conduit.Tls.Toy

/-!
# The toy engine keeps the contracts

* `rest`, `reading`: the plaintext that an engine makes of a stream, record by record.
* `feed_runs`, `shake_runs`, `decryptIn_runs`: what the parts of the engine do to a stream.
* `reads`: **the toy engine reads its stream.** `frugal`: **it accounts for what it takes**, unless its profile lets
  plaintext grow. `fruitful`, `measured`, `unmoved`: it yields no empty pieces and no larger ones than it is asked for,
  and reads on when no more is to be sent. `exhausts`: it opens every whole record.
* `Holds`: what is to be sent stays so until some of it is accepted. `Stepwise`: a relation that each thing an engine
  does keeps, and so all that it does. `retains`: **the toy engine keeps what it has to send**, when no failure is planned
  for it.
* `Mild`: a stream of records that are understood and not answered. `calms`: **an engine with nothing to send reads such
  a stream to its end.**
-/

namespace Conduit.Tls.Toy

variable {V : Type} {e e' : Engine} {c x : Bytes} {ps : List Push}

/-! ## Records -/

/-- The first whole record of a stream: its type, its body, and what follows it. -/
def cut? (c : Bytes) : Option (UInt8 × Bytes × Bytes) :=
  match c.take 5 with
  | [type, _, _, hi, lo] =>
    let total := 5 + hi.toNat * 256 + lo.toNat
    if c.length < total then none else some (type, (c.take total).drop 5, c.drop total)
  | _ => none

theorem cut?_length {type : UInt8} {body rest : Bytes} (h : cut? c = some (type, body, rest)) :
    5 + body.length + rest.length = c.length := by
  unfold cut? at h
  split at h
  · dsimp only at h
    split at h
    · cases h
    · cases h
      simp only [List.length_drop, List.length_take]
      omega
  · cases h

/-- What follows does not change the first record. -/
theorem cut?_append {type : UInt8} {body rest : Bytes} (h : cut? c = some (type, body, rest)) (x : Bytes) :
    cut? (c ++ x) = some (type, body, rest ++ x) := by
  have hlen := cut?_length h
  have htake : (c ++ x).take 5 = c.take 5 := List.take_append_of_le_length (by omega)
  unfold cut? at h ⊢
  rw [htake]
  split at h
  · rename_i hhead
    dsimp only at h
    split at h
    · cases h
    · rename_i htotal
      cases h
      dsimp only
      rw [if_neg (by rw [List.length_append]; omega), List.take_append_of_le_length (by omega),
        List.drop_append_of_le_length (by omega)]
  · cases h

/-! ## Engines that differ in nothing but plaintext, output and counters -/

/-- Both engines are at the same point of their stream. -/
structure Alike (e e' : Engine) : Prop where
  profile : e'.profile = e.profile
  done : e'.done = e.done
  stage : e'.stage = e.stage
  closed : e'.closed = e.closed

/-- A record does the same to both. -/
theorem handle_alike (h : Alike e e') (type : UInt8) (body : Bytes) :
    Alike (handle e type body).1 (handle e' type body).1 ∧
      ((handle e type body).2 = .ok () ↔ (handle e' type body).2 = .ok ()) ∧
      ∃ t, (handle e type body).1.plain = e.plain ++ t ∧ (handle e' type body).1.plain = e'.plain ++ t := by
  obtain ⟨p, n, done, stage, out, plain, closed, k₁, k₂, k₃, k₄⟩ := e
  obtain ⟨p', n', done', stage', out', plain', closed', k₁', k₂', k₃', k₄'⟩ := e'
  obtain ⟨hp, hd, hs, hc⟩ := h
  dsimp only at hp hd hs hc
  subst hp hd hs hc
  unfold handle
  dsimp only
  split
  · split
    · exact ⟨⟨rfl, rfl, rfl, rfl⟩, Iff.rfl, [], by simp⟩
    · exact ⟨⟨rfl, rfl, rfl, rfl⟩, by simp, [], by simp⟩
  · split
    · split
      · split <;> exact ⟨⟨rfl, rfl, rfl, rfl⟩, Iff.rfl, [], by simp [Engine.queue]⟩
      · split
        · split <;> exact ⟨⟨rfl, rfl, rfl, rfl⟩, Iff.rfl, [], by simp [Engine.queue]⟩
        · split <;> exact ⟨⟨rfl, rfl, rfl, rfl⟩, Iff.rfl, [], by simp [Engine.queue]⟩
    · split
      · split
        · exact ⟨⟨rfl, rfl, rfl, rfl⟩, by simp, [], by simp⟩
        · split
          · exact ⟨⟨rfl, rfl, rfl, rfl⟩, by simp, [], by simp⟩
          · exact ⟨⟨rfl, rfl, rfl, rfl⟩, Iff.rfl, _, rfl, rfl⟩
      · exact ⟨⟨rfl, rfl, rfl, rfl⟩, by simp, [], by simp⟩

/-! ## The plaintext of a stream -/

/-- The plaintext of the whole records of a stream, up to the notice that no more will come. -/
def rest (e : Engine) (c : Bytes) : Bytes :=
  if e.closed then []
  else
    match _h : cut? c with
    | none => []
    | some (type, body, more) =>
      match handle { e with plain := [] } type body with
      | (e', .ok ()) => e'.plain ++ rest e' more
      | (_, .error _) => []
termination_by c.length
decreasing_by
  have := cut?_length _h
  omega

/-- What an engine has decrypted already, and what it will make of a stream. -/
def reading (e : Engine) (c : Bytes) : Bytes := e.plain ++ rest e c

theorem rest_of_closed (h : e.closed = true) : rest e c = [] := by
  rw [rest, if_pos h]

theorem rest_of_none (h : cut? c = none) : rest e c = [] := by
  rw [rest]
  split
  · rfl
  · split
    · rfl
    · rename_i h'
      rw [h] at h'
      cases h'

theorem rest_of_some {type : UInt8} {body more : Bytes} (hc : e.closed = false)
    (hcut : cut? c = some (type, body, more)) :
    rest e c = match handle { e with plain := [] } type body with
      | (e', .ok ()) => e'.plain ++ rest e' more
      | (_, .error _) => [] := by
  rw [rest, if_neg (by rw [hc]; simp)]
  split
  · rename_i h
    rw [hcut] at h
    cases h
  · rename_i h
    rw [hcut] at h
    cases h
    rfl

/-- Only where an engine is in its stream decides what it will make of it. -/
theorem rest_alike (h : Alike e e') (c : Bytes) : rest e c = rest e' c := by
  induction hn : c.length using Nat.strongRecOn generalizing e e' c with
  | ind n ih =>
    cases hc : e.closed with
    | true => rw [rest_of_closed hc, rest_of_closed (h.closed.trans hc)]
    | false =>
      cases hcut : cut? c with
      | none => rw [rest_of_none hcut, rest_of_none hcut]
      | some r =>
        obtain ⟨type, body, more⟩ := r
        rw [rest_of_some hc hcut, rest_of_some (h.closed.trans hc) hcut]
        have halike : Alike { e with plain := [] } { e' with plain := [] } := ⟨h.profile, h.done, h.stage, h.closed⟩
        obtain ⟨ha, hok, t, ht, ht'⟩ := handle_alike halike type body
        have hlen := cut?_length hcut
        match h₁ : handle { e with plain := [] } type body, h₂ : handle { e' with plain := [] } type body with
        | (e₁, .ok ()), (e₂, .ok ()) =>
          simp only [h₁, h₂] at ha ht ht'
          dsimp only
          rw [ih more.length (by omega) ha more rfl, ht, ht']
        | (e₁, .error f), (e₂, .error g) => rfl
        | (e₁, .ok ()), (e₂, .error g) => simp [h₁, h₂] at hok
        | (e₁, .error f), (e₂, .ok ()) => simp [h₁, h₂] at hok

/-- A record that is understood contributes its plaintext. -/
theorem rest_of_cut {type : UInt8} {body more : Bytes} (hc : e.closed = false)
    (hcut : cut? c = some (type, body, more)) (hh : handle e type body = (e', .ok ())) :
    ∃ t, e'.plain = e.plain ++ t ∧ rest e c = t ++ rest e' more := by
  have halike : Alike { e with plain := [] } e := ⟨rfl, rfl, rfl, rfl⟩
  obtain ⟨ha, hok, t, ht, ht'⟩ := handle_alike halike type body
  rw [hh] at ha hok ht'
  refine ⟨t, ht', ?_⟩
  rw [rest_of_some hc hcut]
  match h₁ : handle { e with plain := [] } type body with
  | (e₁, .ok ()) =>
    simp only [h₁, List.nil_append] at ha ht
    dsimp only
    rw [ht, rest_alike ha]
  | (e₁, .error f) => simp [h₁] at hok

theorem rest_grows (e : Engine) (c x : Bytes) : rest e c <+: rest e (c ++ x) := by
  induction hn : c.length using Nat.strongRecOn generalizing e c with
  | ind n ih =>
    cases hc : e.closed with
    | true =>
      rw [rest_of_closed hc]
      exact List.nil_prefix ..
    | false =>
      cases hcut : cut? c with
      | none =>
        rw [rest_of_none hcut]
        exact List.nil_prefix ..
      | some r =>
        obtain ⟨type, body, more⟩ := r
        have hlen := cut?_length hcut
        rw [rest_of_some hc hcut, rest_of_some hc (cut?_append hcut x)]
        match handle { e with plain := [] } type body with
        | (e₁, .ok ()) => exact (List.prefix_append_right_inj _).2 (ih more.length (by omega) e₁ more rfl)
        | (e₁, .error f) => exact List.prefix_rfl

theorem reading_alike (h : Alike e e') (hp : e'.plain = e.plain) (c : Bytes) : reading e c = reading e' c := by
  rw [reading, reading, rest_alike h, hp]

/-! ## What the engine does -/

/-- Sending changes what is to be sent, and nothing else. -/
theorem drainIn_runs (k : Nat) (e : Engine) {post : Engine × Except Fault Bool → List Push → Bytes → Prop}
    (h : ∀ out r ps, post ({ e with out := out }, r) ps c) : Runs (drainIn (V := V) k e) c post := by
  induction k generalizing e post with
  | zero => exact (runs_done _).2 (h e.out _ _)
  | succ k ih =>
    unfold drainIn
    split
    · exact (runs_done _).2 (h e.out _ _)
    · rw [runs_bind, runs_push]
      intro x hx
      match x with
      | .error f => exact (runs_done _).2 (h e.out _ _)
      | .ok 0 => exact (runs_done _).2 (h e.out _ _)
      | .ok (n + 1) => exact ih { e with out := e.out.drop (n + 1) } fun out r ps => h out r _

theorem drain_runs (e : Engine) {post : Engine × Except Fault Bool → List Push → Bytes → Prop}
    (h : ∀ out r ps, post ({ e with out := out }, r) ps c) : Runs (drain (V := V) e) c post :=
  drainIn_runs _ e h

/-- One record is taken, or none is there. -/
theorem feed_runs (e : Engine) {post : Engine × Except Fault Bool → List Push → Bytes → Prop}
    (hnone : cut? c = none → post (e, .ok false) [] c)
    (hsome : ∀ type body more e', cut? c = some (type, body, more) → handle e type body = (e', .ok ()) →
      post (e', .ok true) [] more)
    (herror : ∀ type body more e₁ f, cut? c = some (type, body, more) → handle e type body = (e₁, .error f) →
      ∀ e' ps c', post (e', .error f) ps c') : Runs (feed (V := V) e) c post := by
  unfold feed
  rw [runs_bind, runs_peek]
  split
  · rename_i type _ _ hi lo hhead
    rw [runs_bind, runs_available]
    split
    · rename_i hlt
      exact (runs_done _).2 (hnone (by unfold cut?; rw [hhead]; exact if_pos hlt))
    · rename_i hlt
      have hcut : cut? c = some (type, (c.take (5 + hi.toNat * 256 + lo.toNat)).drop 5,
          c.drop (5 + hi.toNat * 256 + lo.toNat)) := by
        unfold cut?
        rw [hhead]
        exact if_neg hlt
      rw [runs_bind, runs_pull]
      split
      · rename_i hh
        exact (runs_done _).2 (hsome _ _ _ _ hcut hh)
      · rename_i hh
        rw [runs_bind]
        exact drain_runs _ fun out r ps => (runs_done _).2 (herror _ _ _ _ _ hcut hh _ _ _)
  · rename_i hhead
    refine (runs_done _).2 (hnone ?_)
    unfold cut?
    split
    · rename_i hhead'
      exact absurd hhead' (hhead _ _ _ _ _)
    · rfl

/-- The engines that agree on all that a stream may still bring. -/
def Same (e : Engine) (c : Bytes) (e' : Engine) (c' : Bytes) : Prop :=
  ∀ x, reading e (c ++ x) = reading e' (c' ++ x)

theorem Same.alike (h : Alike e e') (hp : e'.plain = e.plain) : Same e c e' c := fun _ => reading_alike h hp _

theorem Same.trans {e₁ : Engine} {c c₁ c' : Bytes} (h : Same e c e₁ c₁) (h' : Same e₁ c₁ e' c') : Same e c e' c' :=
  fun x => (h x).trans (h' x)

/-- Taking a record that is understood loses nothing. -/
theorem Same.cut {type : UInt8} {body more : Bytes} (hc : e.closed = false) (hcut : cut? c = some (type, body, more))
    (hh : handle e type body = (e', .ok ())) : Same e c e' more := by
  intro x
  obtain ⟨t, ht, hrest⟩ := rest_of_cut hc (cut?_append hcut x) hh
  rw [reading, reading, ht, hrest, List.append_assoc]

/-- What a record that is understood can change. -/
theorem handle_ok {type : UInt8} {body : Bytes} (hh : handle e type body = (e', .ok ())) :
    e'.profile = e.profile ∧ (e.closed = true → e'.closed = true) ∧
      ∃ t, e'.plain = e.plain ++ t ∧ t.length ≤ body.length * e.profile.inflate ∧ (e.done = false → t = []) := by
  unfold handle at hh
  dsimp only at hh
  split at hh
  · split at hh
    · cases hh
      exact ⟨rfl, fun _ => rfl, [], by simp⟩
    · cases hh
  · split at hh
    · split at hh
      · split at hh <;> cases hh <;> exact ⟨rfl, id, [], by simp [Engine.queue]⟩
      · split at hh
        · split at hh <;> cases hh <;> exact ⟨rfl, id, [], by simp [Engine.queue]⟩
        · split at hh <;> cases hh <;> exact ⟨rfl, id, [], by simp [Engine.queue]⟩
    · split at hh
      · split at hh
        · cases hh
        · rename_i hd
          split at hh
          · cases hh
          · cases hh
            refine ⟨rfl, id, _, rfl, ?_, fun h => by simp [h] at hd⟩
            rw [List.length_flatMap]
            simp only [List.length_replicate, List.map_const', List.sum_replicate_nat, List.length_take]
            exact Nat.mul_le_mul_right _ (Nat.min_le_right ..)
      · cases hh

/-- During the handshake no record brings plaintext. -/
theorem Same.handshake {type : UInt8} {body more : Bytes} (hd : e.done = false)
    (hcut : cut? c = some (type, body, more)) (hh : handle e type body = (e', .ok ())) : Same e c e' more := by
  cases hc : e.closed with
  | false => exact .cut hc hcut hh
  | true =>
    obtain ⟨-, hclosed, t, ht, -, hnil⟩ := handle_ok hh
    intro x
    rw [reading, reading, rest_of_closed hc, rest_of_closed (hclosed hc), ht, hnil hd, List.append_nil, List.append_nil]

/-- The engine has gone on in its stream. Unless its profile lets plaintext grow, it holds no more than it took. -/
structure Onward (e : Engine) (c : Bytes) (e' : Engine) (c' : Bytes) : Prop where
  same : Same e c e' c'
  profile : e'.profile = e.profile
  paid : e.profile.inflate ≤ 1 → e'.plain.length + c'.length ≤ e.plain.length + c.length

theorem Onward.alike (h : Alike e e') (hp : e'.plain = e.plain) : Onward e c e' c :=
  ⟨.alike h hp, h.profile, fun _ => Nat.le_of_eq (by rw [hp])⟩

theorem Onward.trans {e₁ : Engine} {c₁ c' : Bytes} (h : Onward e c e₁ c₁) (h' : Onward e₁ c₁ e' c') :
    Onward e c e' c' :=
  ⟨h.same.trans h'.same, h'.profile.trans h.profile, fun hi =>
    Nat.le_trans (h'.paid (by rw [h.profile]; exact hi)) (h.paid hi)⟩

/-- One record onward. -/
theorem Onward.cut {type : UInt8} {body more : Bytes} (hs : Same e c e' more)
    (hcut : cut? c = some (type, body, more)) (hh : handle e type body = (e', .ok ())) : Onward e c e' more := by
  obtain ⟨hp, -, t, ht, hlen, -⟩ := handle_ok hh
  refine ⟨hs, hp, fun hi => ?_⟩
  have := cut?_length hcut
  have : body.length * e.profile.inflate ≤ body.length * 1 := Nat.mul_le_mul_left _ hi
  rw [ht, List.length_append]
  omega

theorem shake_runs (k : Nat) (e : Engine) {post : Engine × Outcome → List Push → Bytes → Prop}
    (h : ∀ e' r ps c', (r = .ok () → Onward e c e' c' ∧ e'.plain = e.plain) → post (e', r) ps c') :
    Runs (shake (V := V) k e) c post := by
  induction k generalizing e c post with
  | zero => exact (runs_done _).2 (h _ _ _ _ fun _ => ⟨.alike ⟨rfl, rfl, rfl, rfl⟩ rfl, rfl⟩)
  | succ k ih =>
    unfold shake
    split
    · exact (runs_done _).2 (h _ _ _ _ fun _ => ⟨.alike ⟨rfl, rfl, rfl, rfl⟩ rfl, rfl⟩)
    · rename_i hd
      rw [runs_bind]
      refine drain_runs e fun out r ps => ?_
      have hout : Onward e c { e with out := out } c := .alike ⟨rfl, rfl, rfl, rfl⟩ rfl
      match r with
      | .error f => exact (runs_done _).2 (h _ _ _ _ fun hr => by cases hr)
      | .ok b =>
        dsimp only
        rw [runs_bind]
        refine feed_runs _ (fun hcut => ?_) (fun type body more e' hcut hh => ?_) fun _ _ _ _ f _ _ e' qs c' => ?_
        · exact (runs_done _).2 (h _ _ _ _ fun _ => ⟨hout, rfl⟩)
        · have hs := Onward.cut (.handshake (by simpa using hd) hcut hh) hcut hh
          obtain ⟨-, -, t, ht, -, hnil⟩ := handle_ok hh
          have hplain : e'.plain = e.plain := by rw [ht, hnil (by simpa using hd), List.append_nil]
          refine ih e' fun e₂ r₂ qs c₂ h₂ => h _ _ _ _ fun hr => ?_
          obtain ⟨ho, hp⟩ := h₂ hr
          exact ⟨(hout.trans hs).trans ho, hp.trans hplain⟩
        · exact (runs_done _).2 (h _ _ _ _ fun hr => by cases hr)

/-- What a decryption leaves of the stream. -/
def Opened (e : Engine) (c : Bytes) (e' : Engine) (c' : Bytes) : Except Fault Decrypted → Prop
  | .ok (.data text) =>
    (∀ x, reading e (c ++ x) = text ++ reading e' (c' ++ x)) ∧ e'.profile = e.profile ∧
      (e.profile.inflate ≤ 1 → text.length + e'.plain.length + c'.length ≤ e.plain.length + c.length)
  | .ok .wouldBlock => Onward e c e' c' ∧ reading e c = []
  | .ok .peerClosed => Onward e c e' c' ∧ ∀ x, reading e (c ++ x) = []
  | .error _ => True

theorem Onward.opened {e₁ : Engine} {c₁ c' : Bytes} {r : Except Fault Decrypted} (h : Onward e c e₁ c₁)
    (h' : Opened e₁ c₁ e' c' r) : Opened e c e' c' r := by
  match r with
  | .ok (.data text) =>
    obtain ⟨hs, hp, hpaid⟩ := h'
    exact ⟨fun x => (h.same x).trans (hs x), hp.trans h.profile, fun hi =>
      Nat.le_trans (hpaid (by rw [h.profile]; exact hi)) (h.paid hi)⟩
  | .ok .wouldBlock =>
    refine ⟨h.trans h'.1, ?_⟩
    have := h.same []
    rw [List.append_nil, List.append_nil] at this
    rw [this, h'.2]
  | .ok .peerClosed => exact ⟨h.trans h'.1, fun x => (h.same x).trans (h'.2 x)⟩
  | .error f => trivial

theorem decryptIn_runs (n k : Nat) (e : Engine) (hk : c.length < k)
    {post : Engine × Except Fault Decrypted → List Push → Bytes → Prop}
    (h : ∀ e' r ps c', Opened e c e' c' r → post (e', r) ps c') : Runs (decryptIn (V := V) n k e) c post := by
  induction k generalizing e c post with
  | zero => omega
  | succ k ih =>
    unfold decryptIn
    split
    · refine (runs_done _).2 (h _ _ _ _ ⟨fun x => ?_, rfl, fun _ => ?_⟩)
      · have halike : Alike e { e with plain := e.plain.drop n } := ⟨rfl, rfl, rfl, rfl⟩
        have : rest { e with plain := e.plain.drop n } (c ++ x) = rest e (c ++ x) := (rest_alike halike _).symm
        rw [reading, reading, this, ← List.append_assoc, List.take_append_drop]
      · simp only [List.length_take, List.length_drop]
        omega
    · rename_i hplain
      have hplain : e.plain = [] := by simpa using hplain
      split
      · rename_i hc
        refine (runs_done _).2 (h _ _ _ _ ⟨.alike ⟨rfl, rfl, rfl, rfl⟩ rfl, fun x => ?_⟩)
        rw [reading, hplain, rest_of_closed hc]
        rfl
      · rename_i hc
        rw [runs_bind]
        refine feed_runs e (fun hcut => ?_) (fun type body more e' hcut hh => ?_) fun _ _ _ _ f _ _ e' qs c' => ?_
        · refine (runs_done _).2 (h _ _ _ _ ⟨.alike ⟨rfl, rfl, rfl, rfl⟩ rfl, ?_⟩)
          rw [reading, hplain, rest_of_none hcut]
          rfl
        · have hs := Onward.cut (.cut (by simpa using hc) hcut hh) hcut hh
          dsimp only
          rw [runs_bind]
          refine drain_runs e' fun out r ps => ?_
          have hout : Onward e' more { e' with out := out } more := .alike ⟨rfl, rfl, rfl, rfl⟩ rfl
          match r with
          | .error f => exact (runs_done _).2 (h _ _ _ _ trivial)
          | .ok b =>
            have hlen := cut?_length hcut
            exact ih _ (by omega) fun e₂ r₂ qs c₂ h₂ => h _ _ _ _ ((hs.trans hout).opened h₂)
        · exact (runs_done _).2 (h _ _ _ _ trivial)

/-! ## The calls of the engine -/

theorem handshake_runs (e : Engine) {post : Engine × Except Fault Progress → List Push → Bytes → Prop}
    (h : ∀ e' r ps c', (∀ p, r = .ok p → Onward e c e' c' ∧ e'.plain = e.plain) → post (e', r) ps c') :
    Runs (handshake (V := V) e) c post := by
  unfold handshake
  dsimp only
  split
  · exact (runs_done _).2 (h _ _ _ _ fun p hp => by cases hp)
  · rw [runs_bind, runs_available, runs_bind]
    refine shake_runs _ _ fun e₁ r₁ ps c₁ h₁ => ?_
    match r₁ with
    | .error f => exact (runs_done _).2 (h _ _ _ _ fun p hp => by cases hp)
    | .ok () =>
      obtain ⟨ho, hp⟩ := h₁ rfl
      dsimp only
      rw [runs_bind]
      refine drain_runs _ fun out r ps => (runs_done _).2 (h _ _ _ _ fun p _ => ⟨?_, hp⟩)
      have h₀ : Onward e c { e with handshakes := e.handshakes + 1 } c := .alike ⟨rfl, rfl, rfl, rfl⟩ rfl
      have h₂ : Onward e₁ c₁ { e₁ with out := out } c₁ := .alike ⟨rfl, rfl, rfl, rfl⟩ rfl
      exact (h₀.trans ho).trans h₂

theorem decrypt_runs (e : Engine) (n : Nat) {post : Engine × Except Fault Decrypted → List Push → Bytes → Prop}
    (h : ∀ e' r ps c', Opened e c e' c' r → post (e', r) ps c') : Runs (decrypt (V := V) e n) c post := by
  unfold decrypt
  dsimp only
  split
  · exact (runs_done _).2 (h _ _ _ _ trivial)
  · rw [runs_bind, runs_available]
    refine decryptIn_runs n _ _ (Nat.lt_succ_self _) fun e' r ps c' ho => h _ _ _ _ ?_
    have h₀ : Onward e c { e with decrypts := e.decrypts + 1 } c := .alike ⟨rfl, rfl, rfl, rfl⟩ rfl
    exact h₀.opened ho

theorem flush_runs (e : Engine) {post : Engine × Except Fault Bool → List Push → Bytes → Prop}
    (h : ∀ e' r ps, Alike e e' → e'.plain = e.plain → post (e', r) ps c) : Runs (flush (V := V) e) c post := by
  unfold flush
  dsimp only
  split
  · exact (runs_done _).2 (h _ _ _ ⟨rfl, rfl, rfl, rfl⟩ rfl)
  · exact drain_runs _ fun out r ps => h _ _ _ ⟨rfl, rfl, rfl, rfl⟩ rfl

theorem encrypt_alike (e : Engine) (data : Bytes) :
    Alike e (encrypt e data).1 ∧ (encrypt e data).1.plain = e.plain := by
  unfold encrypt
  dsimp only
  split <;> exact ⟨⟨rfl, rfl, rfl, rfl⟩, rfl⟩

section Works

variable {c' : Bytes}

theorem handshake_onward {p : Progress} (hw : Works (handshake (V := V) e) c ps c' (e', .ok p)) :
    Onward e c e' c' ∧ e'.plain = e.plain := by
  have hr : Runs (handshake (V := V) e) c fun r _ c' => ∀ p, r.2 = .ok p → Onward e c r.1 c' ∧ r.1.plain = e.plain :=
    handshake_runs e fun _ _ _ _ h => h
  exact hr _ _ _ hw p rfl

theorem decrypt_opened {n : Nat} {r : Except Fault Decrypted} (hw : Works (decrypt (V := V) e n) c ps c' (e', r)) :
    Opened e c e' c' r := by
  have hr : Runs (decrypt (V := V) e n) c fun r _ c' => Opened e c r.1 c' r.2 :=
    decrypt_runs e n fun _ _ _ _ h => h
  exact hr _ _ _ hw

theorem flush_alike {r : Except Fault Bool} (hw : Works (flush (V := V) e) c ps c' (e', r)) :
    Alike e e' ∧ e'.plain = e.plain ∧ c' = c := by
  have hr : Runs (flush (V := V) e) c fun r _ c' => Alike e r.1 ∧ r.1.plain = e.plain ∧ c' = c :=
    flush_runs e fun _ _ _ ha hp => ⟨ha, hp, rfl⟩
  exact hr _ _ _ hw

end Works

/-- **The toy engine reads its stream**, whatever its profile. -/
theorem reads : Reads (ops (V := V)) (fun _ => True) reading where
  grows e c x := (List.prefix_append_right_inj _).2 (rest_grows e c x)
  handshake _ hw := ⟨trivial, (handshake_onward hw).1.same⟩
  data _ hw := ⟨trivial, (decrypt_opened hw).1⟩
  wouldBlock _ hw := ⟨trivial, (decrypt_opened hw).2, (decrypt_opened hw).1.same⟩
  peerClosed _ hw := (decrypt_opened hw).2
  flush _ hw := by
    obtain ⟨ha, hp, rfl⟩ := flush_alike hw
    exact ⟨trivial, Same.alike ha hp⟩
  encrypt _ := ⟨trivial, fun c => (reading_alike (encrypt_alike _ _).1 (encrypt_alike _ _).2 c).symm⟩

/-- **The toy engine accounts for what it takes**, unless its profile lets plaintext grow. -/
theorem frugal : Frugal (ops (V := V)) fun e => e.profile.inflate ≤ 1 where
  handshake hg hw := by
    obtain ⟨ho, hp⟩ := handshake_onward hw
    exact ⟨by rw [ho.profile]; exact hg, Nat.le_of_eq (congrArg List.length hp)⟩
  decrypt := by
    intro e e' n c c' ps r hg hw
    have ho := decrypt_opened hw
    match r with
    | .data text =>
      obtain ⟨-, hp, hpaid⟩ := ho
      exact ⟨by rw [hp]; exact hg, hpaid hg⟩
    | .wouldBlock | .peerClosed =>
      have hpaid := ho.1.paid hg
      refine ⟨by rw [ho.1.profile]; exact hg, ?_⟩
      show 0 + e'.plain.length + c'.length ≤ e.plain.length + c.length
      omega
  flush hg hw := by
    obtain ⟨ha, hp, -⟩ := flush_alike hw
    exact ⟨by rw [ha.profile]; exact hg, Nat.le_of_eq (congrArg List.length hp)⟩
  encrypt := by
    intro e data hg
    obtain ⟨ha, hp⟩ := encrypt_alike e data
    refine ⟨?_, Nat.le_of_eq (congrArg List.length hp)⟩
    show (encrypt e data).1.profile.inflate ≤ 1
    rw [ha.profile]
    exact hg

theorem decryptIn_yields (n k : Nat) (e : Engine) :
    Runs (decryptIn (V := V) n k e) c fun r _ _ =>
      ∀ text, r.2 = .ok (.data text) → text.length ≤ n ∧ (0 < n → text ≠ []) := by
  induction k generalizing e c with
  | zero => exact (runs_done _).2 fun _ h => by cases h
  | succ k ih =>
    unfold decryptIn
    split
    · rename_i hplain
      have hplain : e.plain ≠ [] := by simpa using hplain
      refine (runs_done _).2 fun text h => ?_
      cases h
      refine ⟨List.length_take_le n e.plain, fun hn => ?_⟩
      rw [Ne, List.take_eq_nil_iff, not_or]
      exact ⟨by omega, hplain⟩
    · split
      · exact (runs_done _).2 fun _ h => by cases h
      · rw [runs_bind]
        refine feed_runs e (fun _ => ?_) (fun type body more e' _ _ => ?_) fun _ _ _ _ f _ _ e' qs c' => ?_
        · exact (runs_done _).2 fun _ h => by cases h
        · dsimp only
          rw [runs_bind]
          refine drain_runs e' fun out r ps => ?_
          match r with
          | .error f => exact (runs_done _).2 fun _ h => by cases h
          | .ok b => exact (ih _).mono fun _ _ _ h => h
        · exact (runs_done _).2 fun _ h => by cases h

/-- A piece of plaintext is not larger than asked for, and not empty when any is asked for. -/
theorem decrypt_yields {n : Nat} {text : Bytes} (hw : Works (decrypt (V := V) e n) c ps c' (e', .ok (.data text))) :
    text.length ≤ n ∧ (0 < n → text ≠ []) := by
  have hruns : Runs (decrypt (V := V) e n) c fun r _ _ =>
      ∀ text, r.2 = .ok (.data text) → text.length ≤ n ∧ (0 < n → text ≠ []) := by
    unfold decrypt
    dsimp only
    split
    · exact (runs_done _).2 fun _ h => by cases h
    · rw [runs_bind, runs_available]
      exact (decryptIn_yields n _ _).mono fun _ _ _ h => h
  exact hruns _ _ _ hw text rfl

/-- **The toy engine never yields an empty piece.** -/
theorem fruitful : Fruitful (ops (V := V)) := fun hn hw => (decrypt_yields hw).2 hn

/-- **The toy engine yields no more than it is asked for.** -/
theorem measured : Measured (ops (V := V)) := fun hw => (decrypt_yields hw).1

/-- **The toy engine reads on when it has queued the notice.** -/
theorem unmoved : Unmoved (ops (V := V)) (fun _ => True) reading := by
  intro e _
  have halike : Alike e (closeNotify e) := ⟨rfl, rfl, rfl, rfl⟩
  exact ⟨trivial, fun c => (reading_alike halike rfl c).symm⟩

theorem decryptIn_exhausts (n k : Nat) (e : Engine) (hk : c.length < k) :
    Runs (decryptIn (V := V) n k e) c fun r _ c' => r.2 = .ok .wouldBlock → cut? c' = none := by
  induction k generalizing e c with
  | zero => omega
  | succ k ih =>
    unfold decryptIn
    split
    · exact (runs_done _).2 fun h => by cases h
    · split
      · exact (runs_done _).2 fun h => by cases h
      · rw [runs_bind]
        refine feed_runs e (fun hcut => (runs_done _).2 fun _ => hcut) (fun type body more e' hcut _ => ?_)
          fun _ _ _ _ f _ _ e' qs c' => (runs_done _).2 fun h => by cases h
        have hlen := cut?_length hcut
        dsimp only
        rw [runs_bind]
        refine drain_runs e' fun out r ps => ?_
        match r with
        | .error f => exact (runs_done _).2 fun h => by cases h
        | .ok b => exact (ih _ (by omega)).mono fun _ _ _ h => h

/-- **The toy engine leaves no whole record** when it finds nothing to open. -/
theorem exhausts : Exhausts (ops (V := V)) fun _ c => cut? c ≠ none where
  decrypt := by
    intro e e' n c c' ps hw
    have hruns : Runs (decrypt (V := V) e n) c fun r _ c' => r.2 = .ok .wouldBlock → cut? c' = none := by
      unfold decrypt
      dsimp only
      split
      · exact (runs_done _).2 fun h => by cases h
      · rw [runs_bind, runs_available]
        exact decryptIn_exhausts n _ _ (Nat.lt_succ_self _)
    exact fun hc => hc (hruns _ _ _ hw rfl)
  flush h hw := by
    rw [(flush_alike hw).2.2]
    exact h
  encrypt h := h
  closeNotify h := h

/-! ## What is to be sent -/

section Sends

variable {e₁ : Engine} {qs : List Push}

/-- No failure is planned for an engine. -/
def Reliable (e : Engine) : Prop := e.profile.faults = []

theorem Reliable.failure? (h : Reliable e) (place : FaultAt) (nth : Nat) : e.profile.failure? place nth = none := by
  unfold Profile.failure?
  rw [show e.profile.faults = [] from h]
  rfl

theorem Reliable.error? (h : Reliable e) (place : FaultAt) (nth : Nat) : e.profile.error? place nth = none := by
  unfold Profile.error?
  rw [h.failure?]

/-- Unless something was accepted, all that `e` had to send stands at the front of what `e'` has to send. -/
structure Holds (e : Engine) (ps : List Push) (e' : Engine) : Prop where
  profile : e'.profile = e.profile
  out : sent ps = [] → e.out <+: e'.out

theorem Holds.trans (h : Holds e ps e₁) (h' : Holds e₁ qs e') : Holds e (ps ++ qs) e' := by
  refine ⟨h'.profile.trans h.profile, fun hsent => ?_⟩
  rw [sent_append, List.append_eq_nil_iff] at hsent
  exact (h.out hsent.1).trans (h'.out hsent.2)

theorem Holds.retained {good : Engine → Prop} (h : Holds e ps e') (hg : good e') :
    Retained (ops (V := V)) good ps e e' := by
  refine ⟨hg, fun hsent hw => ?_⟩
  have hout : e.out ≠ [] := by simpa [ops] using hw
  have hout' : e'.out ≠ [] := fun hnil => hout (List.prefix_nil.1 (hnil ▸ h.out hsent))
  simpa [ops] using hout'

theorem drainIn_holds (k : Nat) (e : Engine) :
    Runs (drainIn (V := V) k e) c fun r ps _ => Holds e ps r.1 ∧ (r.2 ≠ .ok true → r.1.out ≠ []) := by
  induction k generalizing e with
  | zero =>
    refine (runs_done _).2 ⟨⟨rfl, fun _ => List.prefix_rfl⟩, fun h => ?_⟩
    simpa using h
  | succ k ih =>
    unfold drainIn
    split
    · exact (runs_done _).2 ⟨⟨rfl, fun _ => List.prefix_rfl⟩, fun h => absurd rfl h⟩
    · rename_i hne
      have hne : e.out ≠ [] := by simpa using hne
      rw [runs_bind, runs_push]
      intro x hx
      match x with
      | .error f => exact (runs_done _).2 ⟨⟨rfl, fun _ => List.prefix_rfl⟩, fun _ => hne⟩
      | .ok 0 => exact (runs_done _).2 ⟨⟨rfl, fun _ => List.prefix_rfl⟩, fun _ => hne⟩
      | .ok (n + 1) =>
        refine (ih { e with out := e.out.drop (n + 1) }).mono fun r qs c' h => ?_
        refine ⟨⟨h.1.profile, fun hsent => ?_⟩, h.2⟩
        -- something was accepted
        rw [List.singleton_append, sent_cons, List.append_eq_nil_iff] at hsent
        exact absurd (List.take_eq_nil_iff.1 hsent.1) (by simp [hne])

theorem drain_holds (e : Engine) :
    Runs (drain (V := V) e) c fun r ps _ => Holds e ps r.1 ∧ (r.2 ≠ .ok true → r.1.out ≠ []) :=
  drainIn_holds _ e

theorem handle_holds {type : UInt8} {body : Bytes} (hh : handle e type body = (e', .ok ())) : Holds e [] e' := by
  refine ⟨(handle_ok hh).1, fun _ => ?_⟩
  unfold handle at hh
  dsimp only at hh
  split at hh
  · split at hh <;> cases hh
    exact List.prefix_rfl
  · split at hh
    · split at hh
      · split at hh <;> cases hh
        · exact List.prefix_append ..
        · exact List.prefix_rfl
      · split at hh
        · split at hh <;> cases hh <;> exact List.prefix_append ..
        · split at hh <;> cases hh
          · exact List.prefix_append ..
          · exact List.prefix_rfl
    · split at hh
      · split at hh
        · cases hh
        · split at hh <;> cases hh
          exact List.prefix_rfl
      · cases hh

/-- A relation between an engine, what it pushes and what it becomes, which each thing it does keeps. -/
structure Stepwise (R : Engine → List Push → Engine → Prop) : Prop where
  alike : ∀ {e e' : Engine}, e'.profile = e.profile → e'.out = e.out → R e [] e'
  trans : ∀ {e e₁ e' : Engine} {ps qs : List Push}, R e ps e₁ → R e₁ qs e' → R e (ps ++ qs) e'
  drain : ∀ {V : Type} (e : Engine) (c : Bytes), Runs (drain (V := V) e) c fun r ps _ => R e ps r.1
  handle : ∀ {e e' : Engine} {type : UInt8} {body : Bytes}, handle e type body = (e', .ok ()) → R e [] e'

theorem stepwise_holds : Stepwise Holds where
  alike hp ho := ⟨hp, fun _ => ho ▸ List.prefix_rfl⟩
  trans := Holds.trans
  drain e _ := (drain_holds e).mono fun _ _ _ h => h.1
  handle := handle_holds

section Stepwise

variable {R : Engine → List Push → Engine → Prop}

theorem shake_steps (hR : Stepwise R) (k : Nat) (e : Engine) :
    Runs (shake (V := V) k e) c fun r ps _ => r.2 = .ok () → R e ps r.1 := by
  induction k generalizing e c with
  | zero => exact (runs_done _).2 fun _ => hR.alike rfl rfl
  | succ k ih =>
    unfold shake
    split
    · exact (runs_done _).2 fun _ => hR.alike rfl rfl
    · rw [runs_bind]
      refine (hR.drain e c).mono fun r ps c₁ hdrain => ?_
      obtain ⟨e₁, x⟩ := r
      match x with
      | .error f => exact (runs_done _).2 fun h => by cases h
      | .ok clear =>
        dsimp only
        rw [runs_bind]
        refine feed_runs _ (fun _ => ?_) (fun type body more e₂ _ hh => ?_) fun _ _ _ _ f _ _ e₂ qs c₂ => ?_
        · exact (runs_done _).2 fun _ => hR.trans hdrain (hR.alike rfl rfl)
        · refine (ih e₂).mono fun r qs c₂ h hr => ?_
          exact hR.trans hdrain (hR.trans (hR.handle hh) (h hr))
        · exact (runs_done _).2 fun h => by cases h

theorem decryptIn_steps (hR : Stepwise R) (n k : Nat) (e : Engine) :
    Runs (decryptIn (V := V) n k e) c fun r ps _ => ∀ y, r.2 = .ok y → R e ps r.1 := by
  induction k generalizing e c with
  | zero => exact (runs_done _).2 fun _ _ => hR.alike rfl rfl
  | succ k ih =>
    unfold decryptIn
    split
    · exact (runs_done _).2 fun _ _ => hR.alike rfl rfl
    · split
      · exact (runs_done _).2 fun _ _ => hR.alike rfl rfl
      · rw [runs_bind]
        refine feed_runs e (fun _ => ?_) (fun type body more e₁ _ hh => ?_) fun _ _ _ _ f _ _ e₂ qs c₂ => ?_
        · exact (runs_done _).2 fun _ _ => hR.alike rfl rfl
        · dsimp only
          rw [runs_bind]
          refine (hR.drain e₁ _).mono fun r ps c₁ hdrain => ?_
          obtain ⟨e₂, x⟩ := r
          match x with
          | .error f => exact (runs_done _).2 fun y h => by cases h
          | .ok clear =>
            refine (ih e₂).mono fun r qs c₂ h y hy => ?_
            exact hR.trans (hR.handle hh) (hR.trans hdrain (h y hy))
        · exact (runs_done _).2 fun y h => by cases h

/-- A handshake that does not fail. -/
theorem handshake_steps (hR : Stepwise R) (hg : Reliable e) :
    Runs (handshake (V := V) e) c fun r ps _ => ∀ y, r.2 = .ok y → R e ps r.1 := by
  have hcounted : R e [] { e with handshakes := e.handshakes + 1 } := hR.alike rfl rfl
  unfold handshake
  dsimp only
  rw [hg.error?, runs_bind, runs_available, runs_bind]
  refine (shake_steps hR _ _).mono fun r ps c₁ hshake => ?_
  obtain ⟨e₁, x⟩ := r
  cases x with
  | error f => exact (runs_done _).2 fun y h => by cases h
  | ok _ =>
    dsimp only
    rw [runs_bind]
    refine (hR.drain e₁ _).mono fun r qs c₂ hdrain => (runs_done _).2 fun y _ => ?_
    have h := hR.trans hcounted (hR.trans (hshake rfl) hdrain)
    simpa using h

/-- A decryption that does not fail. -/
theorem decrypt_steps (hR : Stepwise R) (hg : Reliable e) (n : Nat) :
    Runs (decrypt (V := V) e n) c fun r ps _ => ∀ y, r.2 = .ok y → R e ps r.1 := by
  have hcounted : R e [] { e with decrypts := e.decrypts + 1 } := hR.alike rfl rfl
  unfold decrypt
  dsimp only
  rw [hg.error?, runs_bind, runs_available]
  refine (decryptIn_steps hR _ _ _).mono fun r ps c₁ h y hy => ?_
  exact hR.trans hcounted (h y hy)

end Stepwise

/-- If something is left to send when all was tried, there was no room. -/
theorem flush_holds (hg : Reliable e) :
    Runs (flush (V := V) e) c fun r ps _ => Holds e ps r.1 ∧ (r.2 ≠ .ok true → r.1.out ≠ []) := by
  unfold flush
  dsimp only
  rw [hg.error?]
  refine (drain_holds _).mono fun r ps c₁ h => ?_
  exact ⟨⟨h.1.profile, h.1.out⟩, h.2⟩

/-- What is encrypted waits behind what was to be sent already. -/
theorem encrypt_holds (hg : Reliable e) (data : Bytes) :
    Holds e [] (encrypt e data).1 ∧ (encrypt e data).2 = .ok data.length := by
  unfold encrypt
  dsimp only
  rw [hg.failure?]
  exact ⟨⟨rfl, fun _ => List.prefix_append ..⟩, rfl⟩

/-- A toy engine keeps what it has to send, when its profile says that no failure is planned for it. -/
theorem retains_of {good : Engine → Prop} (hrel : ∀ {e}, good e → Reliable e)
    (hkeep : ∀ {e e' : Engine}, e'.profile = e.profile → good e → good e') : Retains (ops (V := V)) good where
  handshake := by
    intro e e' c c' ps p hg hw
    have hholds : Holds e ps e' := handshake_steps stepwise_holds (hrel hg) _ _ _ hw p rfl
    exact hholds.retained (hkeep hholds.profile hg)
  decrypt := by
    intro e e' n c c' ps y hg hw
    have hholds : Holds e ps e' := decrypt_steps stepwise_holds (hrel hg) n _ _ _ hw y rfl
    exact hholds.retained (hkeep hholds.profile hg)
  flush := by
    intro e e' c c' ps r hg hw
    obtain ⟨hholds, hleft⟩ := flush_holds (hrel hg) _ _ _ hw
    refine ⟨hholds.retained (hkeep hholds.profile hg), fun h => ?_⟩
    have hne : e'.out ≠ [] := hleft (by rcases h with rfl | rfl <;> simp)
    simpa [ops] using hne
  encrypt := by
    intro e data hg
    obtain ⟨hholds, hok⟩ := encrypt_holds (hrel hg) data
    refine ⟨hholds.retained (hkeep hholds.profile hg), fun h => ?_⟩
    cases hok.symm.trans h
  closeNotify := by
    intro e hg
    exact Holds.retained (e := e) ⟨rfl, fun _ => List.prefix_append ..⟩ (hkeep (e := e) rfl hg)

end Sends

/-! ## What is not answered -/

section Calm

variable {tag : Nat}

/-- Whether an engine that has shaken hands understands a record, and has nothing to say to it. -/
def mild (tag : Nat) (type : UInt8) (body : Bytes) : Bool :=
  (type == 0x15 && body.head? == some 1) || (type == 0x16 && body.head? != some (UInt8.ofNat 'k'.toNat)) ||
    (type == 0x17 && (tag ≤ body.length && (body.drop (body.length - tag)).all (· == 0xAA)))

/-- A stream of such records, of which the last may be incomplete. -/
inductive Mild (tag : Nat) : Bytes → Prop
  | part {c : Bytes} (h : cut? c = none) : Mild tag c
  | record {type : UInt8} {body more c : Bytes} (hcut : cut? c = some (type, body, more))
      (hm : mild tag type body = true) (h : Mild tag more) : Mild tag c

theorem Mild.of_cut {type : UInt8} {body more : Bytes} (h : Mild tag c) (hcut : cut? c = some (type, body, more)) :
    mild tag type body = true ∧ Mild tag more := by
  cases h with
  | part hnone =>
    rw [hnone] at hcut
    cases hcut
  | record hcut' hm h =>
    cases hcut'.symm.trans hcut
    exact ⟨hm, h⟩

theorem handle_mild {type : UInt8} {body : Bytes} (hd : e.done = true) (ht : e.profile.tag = tag)
    (hm : mild tag type body = true) :
    ∃ plain closed, handle e type body = ({ e with plain := plain, closed := closed }, .ok ()) := by
  simp only [mild, Bool.or_eq_true, Bool.and_eq_true, beq_iff_eq, bne_iff_ne, decide_eq_true_eq] at hm
  unfold handle
  dsimp only
  rcases hm with (⟨rfl, hbody⟩ | ⟨rfl, hbody⟩) | ⟨rfl, hlen, htag⟩
  · exact ⟨e.plain, true, by rw [if_pos rfl, if_pos hbody]⟩
  · refine ⟨e.plain, e.closed, ?_⟩
    rw [if_neg (by decide), if_pos rfl, if_pos hd, if_neg hbody]
  · have hsealed : (decide (body.length < e.profile.tag) ||
        (body.drop (body.length - e.profile.tag)).any (· != 0xAA)) = false := by
      rw [ht, Bool.or_eq_false_iff, decide_eq_false_iff_not, Nat.not_lt]
      refine ⟨hlen, ?_⟩
      rw [List.any_eq_false]
      intro x hx
      simpa using List.all_eq_true.1 htag x hx
    refine ⟨e.plain ++ (body.take (body.length - e.profile.tag)).flatMap (List.replicate e.profile.inflate), e.closed, ?_⟩
    rw [if_neg (by decide), if_neg (by decide), if_pos rfl, if_neg (by simp [hd]), hsealed]
    rfl

/-- An engine that has shaken hands and has nothing to send, nor will have for what it reads. -/
structure Calm (tag : Nat) (e : Engine) (c : Bytes) : Prop where
  done : e.done = true
  reliable : Reliable e
  tagged : e.profile.tag = tag
  out : e.out = []
  mild : Mild tag c

theorem drain_nothing {post : Engine × Except Fault Bool → List Push → Bytes → Prop} (h : e.out = [])
    (hpost : post (e, .ok true) [] c) : Runs (drain (V := V) e) c post := by
  have hdrain : drain (V := V) e = pure (e, .ok true) := by simp [drain, drainIn, h]
  rw [hdrain]
  exact (runs_done _).2 hpost

theorem decryptIn_calm (n k : Nat) (e : Engine) (h : Calm tag e (c ++ x)) :
    Runs (decryptIn (V := V) n k e) c fun r _ c' => Calm tag r.1 (c' ++ x) ∧ ∃ y, r.2 = .ok y := by
  induction k generalizing e c with
  | zero => exact (runs_done _).2 ⟨h, _, rfl⟩
  | succ k ih =>
    unfold decryptIn
    split
    · exact (runs_done _).2 ⟨⟨h.done, h.reliable, h.tagged, h.out, h.mild⟩, _, rfl⟩
    · split
      · exact (runs_done _).2 ⟨h, _, rfl⟩
      · have hmild := fun {type : UInt8} {body more : Bytes} (hcut : cut? c = some (type, body, more)) =>
          h.mild.of_cut (cut?_append hcut x)
        rw [runs_bind]
        refine feed_runs e (fun _ => ?_) (fun type body more e' hcut hh => ?_) fun type body more e' f hcut hh => ?_
        · exact (runs_done _).2 ⟨h, _, rfl⟩
        · -- the record is not answered, so there is still nothing to send
          obtain ⟨plain, closed, hrun⟩ := handle_mild h.done h.tagged (hmild hcut).1
          cases hrun.symm.trans hh
          dsimp only
          rw [runs_bind]
          refine drain_nothing h.out ?_
          exact ih { e with plain := plain, closed := closed }
            ⟨h.done, h.reliable, h.tagged, h.out, (hmild hcut).2⟩
        · obtain ⟨plain, closed, hrun⟩ := handle_mild h.done h.tagged (hmild hcut).1
          cases hrun.symm.trans hh

/-- **A toy engine with nothing to send reads on**, when no failure is planned for it and it answers nothing of what it
reads. -/
theorem calms : Calms (ops (V := V)) (Calm tag) where
  decrypt := by
    intro e e' n c c' x ps r h hw
    have hruns : Runs (decrypt (V := V) e n) c fun r _ c' => Calm tag r.1 (c' ++ x) ∧ ∃ y, r.2 = .ok y := by
      unfold decrypt
      dsimp only
      rw [Reliable.error? h.reliable, runs_bind, runs_available]
      exact decryptIn_calm _ _ { e with decrypts := e.decrypts + 1 } ⟨h.done, h.reliable, h.tagged, h.out, h.mild⟩
    exact hruns _ _ _ hw
  flush := by
    intro e e' c c' x ps r h hw
    have hruns : Runs (flush (V := V) e) c fun r _ c' => Calm tag r.1 (c' ++ x) := by
      unfold flush
      dsimp only
      rw [Reliable.error? h.reliable]
      exact drain_nothing h.out ⟨h.done, h.reliable, h.tagged, h.out, h.mild⟩
    exact hruns _ _ _ hw

end Calm

end Conduit.Tls.Toy
