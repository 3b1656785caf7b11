import Conduit.Proofs.Loopback.Polls
import Conduit.Proofs.Stack.Halves

/-!
# Closes that the engine refuses

A plain layer gives up its endpoint before it closes it, and takes it back when the engine refuses. All is then as it was,
but for the poll timer of the endpoint: it starts anew, at the interval that the connection remembers. The endpoint of an
accepted connection polls at the interval of its listener, of which the connection does not know.

* `Pcb.rearmed`: an endpoint that was taken back.
* `Net.Resumes`: what comes of that.
* `Stack.exec_close_refused`: **nobody can tell a refused close from none, but by the polls.**
-/

namespace Conduit

namespace Loopback

/-- An endpoint that a connection takes back when its engine has refused to close it. -/
def Pcb.rearmed (p : Pcb) (id : Handle) (k : Nat) : Pcb :=
  { p with
    owner := if p.state ≠ .closed || p.peer.isNone then some id else none
    closeFailures := p.closeFailures - 1
    pollInterval := k
    pollElapsed := 0 }

/-- An endpoint belongs to a connection, unless it was joined to another and is closed. -/
def Pcb.BelongsTo (p : Pcb) (id : Handle) : Prop :=
  p.owner = if p.state ≠ .closed || p.peer.isNone then some id else none

variable {p : Pcb} {id : Handle} {i k : Nat}

/-- Only its timing is another. -/
theorem Pcb.rearmed_eq (h : p.BelongsTo id) : p.rearmed id k = p.retimed ⟨p.closeFailures - 1, k, 0⟩ := by
  unfold Pcb.rearmed
  rw [← h]
  rfl

namespace Net

variable {n n₁ : Net} {hs : List Happening}

/-- To be given up, not closed, taken back, and told when to poll. -/
theorem rearms (n : Net) (i : Nat) (id : Handle) (k : Nat) :
    ((((n.update i fun p => { p with owner := none }).update i fun p =>
      { p with closeFailures := p.closeFailures - 1 }).attach i id).update i fun p =>
        { p with pollInterval := k, pollElapsed := 0 }) = n.update i fun p => p.rearmed id k := by
  unfold attach
  rw [update_update fun _ => rfl, update_update fun _ => rfl]
  refine update_update fun p => ?_
  unfold Pcb.rearmed
  dsimp only
  split <;> rfl

/-- What two nets come to by the same course, where in the second the endpoint `i` was taken back, to poll at the interval
`k`: the next step brings the same to the same endpoint and owner, and so does the next beat, where the interval is what it
was. As to the endpoint itself, while it is open and nobody sets its timer, the beats are counted from the time when it was
taken back. -/
structure Resumes (i k : Nat) (n : Net) (hs : List Happening) (n₁ n₁' : Net) : Prop where
  brings : n₁'.next.map (fun r => (r.notes, r.value)) = n₁.next.map fun r => (r.notes, r.value)
  step : ∀ j, n₁'.told j .step = n₁.told j .step
  tick : k = (n.pcb i).pollInterval → ∀ j ≠ i, n₁'.told j .tick = n₁.told j .tick
  polls : (∀ x ∈ hs, x.winds i = false) → OpenAlong i n hs →
    n₁'.told i .tick = if k ∣ hs.count .tick + 1 then (n₁.pcb i).owner else none
  polled : (∀ x ∈ hs, x.winds i = false) → OpenAlong i n hs → Pcb.Wound (n.pcb i) →
    n₁.told i .tick =
      if (n.pcb i).pollInterval ∣ (n.pcb i).pollElapsed + hs.count .tick + 1 then (n₁.pcb i).owner else none

/-- **A net in which an endpoint was taken back goes on as before.** -/
theorem course_resumes (hb : (n.pcb i).BelongsTo id) (hx : ∀ x ∈ hs, x.closes i = false) (hc : n.course hs = .ok n₁) :
    ∃ n₁', (n.update i fun p => p.rearmed id k).course hs = .ok n₁' ∧ Resumes i k n hs n₁ n₁' := by
  have hnear : ∀ j, Timing.Near (k = (n.pcb i).pollInterval) i j (n.pcb j).timing
      (Function.update (fun j => (n.pcb j).timing) i ⟨(n.pcb i).closeFailures - 1, k, 0⟩ j) := by
    intro j
    by_cases hj : j = i
    · subst hj
      rw [Function.update_self]
      exact ⟨fun hne => absurd rfl hne, fun he => he, fun _ hne => absurd rfl hne⟩
    · rw [Function.update_of_ne hj]
      exact .refl _
  have hshadows : Shadows (k = (n.pcb i).pollInterval) i n (n.update i fun p => p.rearmed id k) :=
    ⟨_, update_eq_retimed (Pcb.rearmed_eq hb), hnear⟩
  obtain ⟨n₁', hc', hs₁⟩ := course_shadows hshadows hx hc
  refine ⟨n₁', hc', hs₁.next, hs₁.told_step, fun he j hj => hs₁.told_tick he hj, fun hw ho => ?_,
    fun hw ho hwound => course_polls hw ho hwound hc⟩
  have hrearmed : (n.update i fun p => p.rearmed id k).pcb i = (n.pcb i).rearmed id k := pcb_update_self (lt_of_open ho.head)
  have hwound : Pcb.Wound ((n.update i fun p => p.rearmed id k).pcb i) := by
    rw [hrearmed]
    exact (Nat.eq_zero_or_pos k).imp (fun h => h) fun h => h
  have howner : (n₁'.pcb i).owner = (n₁.pcb i).owner := by
    obtain ⟨g, rfl, -⟩ := hs₁
    exact retimed_owner
  rw [course_polls hw (hshadows.openAlong hx hc ho) hwound hc', hrearmed, howner]
  show (if k ∣ 0 + hs.count .tick + 1 then _ else _) = _
  rw [Nat.zero_add]

end Net

end Loopback

open Exec Slots Loopback

variable {H : Host} {b : Behaviour H} {w w' : World H} {A : Stack.Answers H} {id : Handle} {e : Entry H} {l : Plain H.Pcb} {i : Nat}

namespace Stack

/-- An operation of an endpoint of the loopback net of which there is nothing to note. -/
theorem ends_act_loopback {σ : Type} {s : σ} {flag : Bool} {o : PcbOp} {r : Result o.Reply}
    {post : (o.Reply × σ) × Bool → World H → Prop} (hr : w.net.perform i o = .ok r) (hn : r.notes = [])
    (h : post ((r.value, s), flag) { w with net := r.net }) :
    Ends ((((Layer.Act.pcb (.loopback i) o : Layer.Act H σ _).run s).run (answerLayer b A id)).run flag) w post := by
  refine (ends_act_request _).2 ?_
  simp only [answerLayer, ends_run_lift]
  unfold performPcb
  simp only [ends_bind, ends_get, hr, ends_modify, hn]
  exact (ends_pure ()).2 ((ends_pure _).2 h)

/-- The world in which a connection has taken its endpoint back. -/
def rearm (b : Behaviour H) (w : World H) (id : Handle) (i k : Nat) : World H :=
  { w with
    net := w.net.update i fun p => p.rearmed id k
    memory := b.note (.warn "tcp close failed, callbacks re-armed" [id.field, Fault.outOfMemory.field]) w.memory }

/-- What a plain layer does when it is asked to close its endpoint. -/
theorem plain_close_refused (hp : l.pcb = some (.loopback i)) (he : w.stack.find? id = some e) :
    Ends ((runMethod b A id (.op .close) (.plain l)).run false) w fun r w' =>
      match r.1.2 with
      | .ok _ => w'.stack = w.stack
      | .error f => f = .outOfMemory ∧ r.1.1 = .plain l ∧ r.2 = false ∧ w' = rearm b w id i e.pollInterval := by
  have hinterval : ((w.stack.find? id).map (·.pollInterval)).getD 0 = e.pollInterval := by
    rw [he]
    rfl
  refine ends_run_map ?_
  show Ends ((((Plain.close id).run l).run (answerLayer b A id)).run false) w _
  unfold Plain.close
  simp only [ends_act_bind, ends_act_get, hp]
  refine ends_act_loopback rfl rfl ?_
  generalize hn : (w.net.update i fun p => { p with owner := none }) = n
  have hclose : n.perform i .close = .ok ⟨(n.close i).1, [], (n.close i).2⟩ := rfl
  refine ends_act_loopback hclose rfl ?_
  by_cases hfail : 0 < (n.pcb i).closeFailures
  · rw [Net.close_of_failures hfail]
    simp only [ends_act_bind]
    refine ends_act_loopback rfl rfl ((ends_act_request _).2 ?_)
    simp only [answerLayer, ends_run_bind, ends_run_lift, ends_lookup, ends_run_pure]
    refine ends_act_loopback rfl rfl ((ends_act_request _).2 ?_)
    simp only [answerLayer, ends_run_lift, ends_note]
    refine (ends_act_pure _).2 ⟨rfl, rfl, rfl, ?_⟩
    rw [hinterval, ← hn]
    exact congrArg (fun n' => { rearm b w id i e.pollInterval with net := n' }) (Net.rearms w.net i id e.pollInterval)
  · have hvalue : (n.close i).2 = .ok () := by
      unfold Net.close
      simp only
      rw [if_neg hfail]
    rw [hvalue]
    simp only [ends_act_bind, ends_act_modify, ends_act_release, ends_act_pure]

/-- **Nobody can tell a refused close from none, but by the polls.** The world is what it was, but that the connection has
taken its endpoint back; and whatever happens from then on, short of another close, the same comes of it. -/
theorem exec_close_refused (fuel : Nat) {f : Fault} (hq : w.stack.Quiet) (he : w.stack.find? id = some e)
    (hl : e.layer = some (.plain l)) (hp : l.pcb = some (.loopback i))
    (hc : exec b fuel (.ask id .close) w = .ok (.error f) w') :
    f = .outOfMemory ∧ w' = rearm b w id i e.pollInterval ∧
      ((w.net.pcb i).BelongsTo id → ∀ hs n, (∀ x ∈ hs, x.closes i = false) → w.net.course hs = .ok n →
        ∃ n', w'.net.course hs = .ok n' ∧ Net.Resumes i e.pollInterval w.net hs n n') := by
  have hends : Ends (exec b fuel (.ask id .close)) w fun r w' =>
      ∀ f, r = .error f → f = .outOfMemory ∧ w' = rearm b w id i e.pollInterval := by
    cases fuel with
    | zero => exact ends_throw _
    | succ k =>
      show Ends (call b (exec b k) (freeEntry b (exec b k) k) k id .close) w _
      unfold call
      have haway : (w.stack.away id).find? id = some (bare e) := by
        rw [find?_away, if_pos rfl, he]
        rfl
      refine (ends_bind _ _).2 (ends_withLayer he hl ((plain_close_refused hp haway).mono ?_))
      rintro ⟨⟨l', r⟩, released⟩ w₁ hrun
      cases r with
      | ok _ =>
        -- the connection goes, and the answer is no refusal
        have hstack : w₁.stack = w.stack.away id := hrun
        refine ⟨isAlive_iff.2 ⟨_, hstack ▸ haway⟩, fun _ w₂ _ => (ends_bind _ _).2 fun _ w₃ _ => (ends_pure _).2 ?_⟩
        exact nofun
      | error f =>
        obtain ⟨rfl, rfl, rfl, rfl⟩ := hrun
        have hback : (w.stack.away id).back id (.plain l) = w.stack := by
          rw [back_away]
          refine update_eq_self fun e' he' => ?_
          cases he.symm.trans he'
          rw [← hl]
        refine ⟨isAlive_iff.2 ⟨_, haway⟩, (ends_pure _).2 ((ends_bind _ _).2 (ends_pump ?_ ((ends_pure _).2 ?_)))⟩
        · show ((w.stack.away id).back id (.plain l)).Quiet
          rwa [hback]
        · rintro f ⟨⟩
          refine ⟨rfl, ?_⟩
          exact congrArg (fun s => { rearm b w id i e.pollInterval with stack := s }) hback
  obtain ⟨hf, hw⟩ := hends _ _ hc f rfl
  refine ⟨hf, hw, fun hb hs n hx hn => ?_⟩
  rw [hw]
  exact Net.course_resumes hb hx hn

/-! A listener that is polled at every beat, and a connection to it that is polled at every third. Both ends are made to
refuse a close. -/

/-- A connection, and what was accepted for it. -/
def joining : Act meddler Unit :=
  .ask .newPcb fun i =>
  .ask (.openPcb (.loopback i)) fun listener =>
  .ask (.ask listener (.bind Net.doorway)) fun _ =>
  .ask (.ask listener (.listen 1)) fun _ =>
  .ask (.ask listener (.setPoll 1)) fun _ =>
  .ask (.register listener .accept ⟨9, 0⟩) fun _ =>
  .ask .newPcb fun j =>
  .ask (.openPcb (.loopback j)) fun caller =>
  .ask (.ask caller (.connect Net.doorway)) fun _ =>
  .ask .step fun _ =>
  .ask .step fun _ =>
  .ask (.ask caller (.setPoll 3)) fun _ =>
  .ask (.failCloses caller 1) fun _ =>
  .ask (.failCloses ⟨2, 0⟩ 1) fun _ => .done ()

/-- Before anything has happened. -/
def untouched : World meddler := { shared := (), memory := () }

/-- Whether the caller is a plain layer over its endpoint, and is polled at every third beat. -/
def isCaller (s : Slots meddler) : Bool :=
  match s.find? ⟨1, 0⟩ with
  | some { layer := some (.plain { pcb := some (.loopback 1), .. }), pollInterval := 3, .. } => true
  | _ => false

theorem isCaller_entry {s : Slots meddler} (h : isCaller s = true) :
    ∃ e l, s.find? ⟨1, 0⟩ = some e ∧ e.layer = some (.plain l) ∧ l.pcb = some (.loopback 1) ∧ e.pollInterval = 3 := by
  unfold isCaller at h
  split at h
  · rename_i he
    exact ⟨_, _, he, rfl, rfl, rfl⟩
  · cases h

theorem exec_close_refused_caller : ∃ w w' e l, Stack.run meddling 20 joining untouched = .ok () w ∧ w.stack.queue = [] ∧
    w.stack.find? ⟨1, 0⟩ = some e ∧ e.layer = some (.plain l) ∧ l.pcb = some (.loopback 1) ∧ e.pollInterval = 3 ∧
    exec meddling 20 (.ask ⟨1, 0⟩ .close) w = .ok (.error .outOfMemory) w' ∧ w' = rearm meddling w ⟨1, 0⟩ 1 3 ∧
    ∀ hs n, (∀ x ∈ hs, x.closes 1 = false) → w.net.course hs = .ok n →
      ∃ n', w'.net.course hs = .ok n' ∧ Net.Resumes 1 3 w.net hs n n' := by
  have hreaches : Exec.reaches (Stack.run meddling 20 joining) untouched (fun _ w =>
      w.stack.queue.isEmpty && isCaller w.stack && (w.net.pcb 1).owner = some ⟨1, 0⟩ &&
      (w.net.pcb 1).state = .established &&
      Exec.reaches (exec meddling 20 (.ask ⟨1, 0⟩ .close)) w fun r _ => r = .error .outOfMemory) = true := by decide +kernel
  obtain ⟨_, w, hrun, hend⟩ := Exec.exists_of_reaches hreaches
  simp only [Bool.and_eq_true, List.isEmpty_iff, decide_eq_true_eq] at hend
  obtain ⟨⟨⟨⟨hqueue, hentry⟩, howner⟩, hstate⟩, hclose⟩ := hend
  obtain ⟨r, w', hclose, hrefused⟩ := Exec.exists_of_reaches hclose
  obtain rfl := of_decide_eq_true hrefused
  obtain ⟨e, l, he, hl, hp, hpoll⟩ := isCaller_entry hentry
  have hquiet : w.stack.Quiet := .inr (.inr hqueue)
  obtain ⟨-, hw, hresumes⟩ := exec_close_refused 20 hquiet he hl hp hclose
  rw [hpoll] at hw hresumes
  refine ⟨w, w', e, l, hrun, hqueue, he, hl, hp, hpoll, hclose, hw, hresumes ?_⟩
  show (w.net.pcb 1).owner = _
  rw [howner, hstate]
  rfl

/-- **An accepted connection is polled no more after a refused close**, although it was due. -/
theorem polls_lost : ∃ w w', Stack.run meddling 20 joining untouched = .ok () w ∧
    exec meddling 20 (.ask ⟨2, 0⟩ .close) w = .ok (.error .outOfMemory) w' ∧
    (w.net.pcb 2).pollInterval = 1 ∧ w.net.tick.2 = [⟨0, 0⟩, ⟨2, 0⟩] ∧
    (w'.net.pcb 2).pollInterval = 0 ∧ w'.net.tick.2 = [⟨0, 0⟩] := by
  have hreaches : Exec.reaches (Stack.run meddling 20 joining) untouched (fun _ w =>
      (w.net.pcb 2).pollInterval = 1 && w.net.tick.2 = [⟨0, 0⟩, ⟨2, 0⟩] &&
      Exec.reaches (exec meddling 20 (.ask ⟨2, 0⟩ .close)) w fun r w' =>
        r = .error .outOfMemory && (w'.net.pcb 2).pollInterval = 0 && w'.net.tick.2 = [⟨0, 0⟩]) = true := by decide +kernel
  obtain ⟨_, w, hrun, hend⟩ := Exec.exists_of_reaches hreaches
  simp only [Bool.and_eq_true, decide_eq_true_eq] at hend
  obtain ⟨⟨hinterval, hdue⟩, hclose⟩ := hend
  obtain ⟨r, w', hclose, hend⟩ := Exec.exists_of_reaches hclose
  simp only [Bool.and_eq_true, decide_eq_true_eq] at hend
  obtain ⟨⟨rfl, hinterval'⟩, hdue'⟩ := hend
  exact ⟨w, w', hrun, hclose, hinterval, hdue, hinterval', hdue'⟩

end Stack

end Conduit
