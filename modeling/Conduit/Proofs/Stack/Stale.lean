import Conduit.Proofs.Stack.Halves
import Conduit.Proofs.Stack.Moments
import Conduit.Proofs.Stack.Rests

/-!
# Handles that name nothing

A handle that an application keeps beyond the end of its connection is stale. It stays so, however often the slot is
used again, and whatever is asked of it changes nothing.

* `Stack.Absent`: the requests about a connection, and what each is answered when it is not there.
* `Stack.exec_absent`: **what is asked of a handle that names nothing changes nothing.**
* `Stack.stale_handles`: each handle is given out once, one that names nothing any more never does again, and it is
  inert at every moment.
-/

namespace Conduit

open Exec Slots Mark

variable {H : Host} {b : Behaviour H} {w : World H} {id : Handle} {α β : Type}

/-- To change a connection that is not there changes nothing. -/
theorem Slots.update_absent {s : Slots H} {f : Entry H → Entry H} (hid : s.find? id = none) : s.update id f = s := by
  refine update_eq_self fun e he => ?_
  rw [hid] at he
  cases he

namespace Stack

/-! ## Requests about a connection that is not there -/

/-- The requests about a connection, and what each is answered when it is not there: a fault where one can be told, else
a neutral value. -/
inductive Absent (id : Handle) : (r : Req H) → r.Ans → Prop
  | ask (o : Op) : Absent id (.ask id o) (o.refused .invalidArgument)
  | wrap (layer : Layer H) : Absent id (.wrap id layer) (.error .invalidArgument)
  | register (k : CallbackKind) (code : H.Code) : Absent id (.register id k code) (.error .invalidArgument)
  | clearCallbacks : Absent id (.clearCallbacks id) ()
  | lookup : Absent id (.lookup id) none
  | modifyLayer (f : H.Layer → H.Layer) : Absent id (.modifyLayer id f) false
  | dispatch (e : Event) : Absent id (.dispatch id (.event e)) (.error .invalidArgument)

/-- Whatever is asked of `id` is answered as for a connection that is not there, and leaves the connections with their
layers and callbacks, the events, the engines and the net as they were. At most a note is written. -/
def Inert (b : Behaviour H) (w : World H) (id : Handle) : Prop :=
  ∀ (k : Nat) (r : Req H) (a : r.Ans), Absent id r a →
    ∃ m, (m = w.memory ∨ ∃ n, m = b.note n w.memory) ∧ exec b (k + 3) r w = .ok a { w with memory := m }

theorem pump_quiet {A : Answers H} {free : Handle → Exec H Unit} (k : Nat) (hq : w.stack.Quiet) :
    pump b A free (k + 1) w = .ok () w := by
  cases hbusy : (0 < w.stack.depth || w.stack.pumping) with
  | true => exact pump_held hbusy
  | false =>
    have hidle := Bool.or_eq_false_iff.1 hbusy
    have hqueue : w.stack.queue = [] := by
      rcases hq with hd | hp | hqueue
      · exact absurd hd (by simpa using hidle.1)
      · rw [hp] at hidle
        cases hidle.2
      · exact hqueue
    rw [pump_idle hbusy hqueue, if_neg (Nat.succ_ne_zero k)]

theorem call_absent {A : Answers H} {free : Handle → Exec H Unit} (k : Nat) (o : Op) (hid : w.stack.find? id = none)
    (hq : w.stack.Quiet) : call b A free (k + 1) id o w = .ok (o.refused .invalidArgument) w := by
  have hlayer : withLayer b A free id (.op o) w = .ok (.error .invalidArgument) w := by
    unfold withLayer
    rw [bind_ok (u := w) (a := none) (by rw [← hid]; rfl)]
    rfl
  unfold call
  rw [bind_ok hlayer, bind_ok (pump_quiet k hq)]
  rfl

/-- **An operation on a connection that is not there is refused**, and changes nothing. -/
theorem operate_absent {A : Answers H} {free : Handle → Exec H Unit} (k : Nat) (o : Op)
    (hid : w.stack.isAlive id = false) (hq : w.stack.Quiet) :
    ∃ m, (m = w.memory ∨ ∃ n, m = b.note n w.memory) ∧
      operate b A free (k + 1) id o w = .ok (o.refused .invalidArgument) { w with memory := m } := by
  have hfind := isAlive_eq_false.1 hid
  cases o with
  | abort | setPoll interval =>
    refine ⟨w.memory, .inl rfl, (bind_ok (getSlots_eq w) _).trans ?_⟩
    rw [hid]
    rfl
  | lower e =>
    refine ⟨_, .inr ⟨.trace "lower event injected" [id.field, ("event", e.label)], rfl⟩, ?_⟩
    exact (bind_ok (x := note b _) rfl _).trans (call_absent k _ hfind hq)
  | _ => exact ⟨w.memory, .inl rfl, call_absent k _ hfind hq⟩

/-- **What is asked of a handle that names nothing changes nothing.** -/
theorem exec_absent (hid : w.stack.isAlive id = false) (hq : w.stack.Quiet) : Inert b w id := by
  have hfind := isAlive_eq_false.1 hid
  intro k r a hr
  cases hr with
  | ask o => exact operate_absent (k + 1) o hid hq
  | dispatch e => exact operate_absent k (.lower e) hid hq
  | wrap layer | modifyLayer f =>
    refine ⟨w.memory, .inl rfl, ?_⟩
    show (lookup id >>= _) w = _
    rw [bind_ok (u := w) (a := none) (by rw [← hfind]; rfl)]
    rfl
  | lookup =>
    refine ⟨w.memory, .inl rfl, ?_⟩
    show EStateM.Result.ok (w.stack.find? id) w = _
    rw [hfind]
  | register kind code =>
    refine ⟨w.memory, .inl rfl, ?_⟩
    show (getSlots >>= _) w = _
    rw [bind_ok (getSlots_eq w), hid]
    rfl
  | clearCallbacks =>
    refine ⟨w.memory, .inl rfl, ?_⟩
    show EStateM.Result.ok () { w with stack := w.stack.clearCallbacks id } = _
    unfold clearCallbacks
    rw [update_absent hfind]

/-! ## Every run -/

/-- The world that a run leaves: when it ends, or when it is interrupted other than for its length. -/
def leaves (x : Exec H α) (w : World H) : Option (World H) :=
  match x w with
  | .ok _ w' => some w'
  | .error .outOfFuel _ => none
  | .error _ w' => some w'

/-- An application may interrupt its run at any moment, by an acknowledgement that no counter can hold; the world is left
as it stands then. -/
theorem exec_interrupt (k i : Nat) {len : Nat} (h : wordBound ≤ len) :
    exec b (k + 1) (.pcb (.loopback i) (.recved len)) w = .error .overflow w := by
  have hword : w.net.perform i (.recved len) = .error .overflow := by
    show (w.net.recved i len).map _ = _
    unfold Loopback.Net.recved
    rw [if_pos (Nat.le_trans h (Nat.le_add_left _ _))]
    rfl
  refine (bind_ok (x := (get : Exec H (World H))) (a := w) (u := w) rfl _).trans ?_
  rw [hword]
  rfl

theorem leaves_quiet {w' : World H} (fuel : Nat) (p : Act H α) (hw : w.stack = {})
    (h : leaves (run b fuel p) w = some w') : w'.stack.Quiet := by
  have hrests := run_rests (b := b) fuel p hw
  unfold leaves at h
  unfold Rests at hrests
  cases hx : run b fuel p w with
  | ok a v =>
    rw [hx] at h hrests
    cases h
    exact hrests
  | error e v =>
    rw [hx] at h hrests
    cases e with
    | outOfFuel => cases h
    | overflow | noFreePort =>
      cases h
      exact hrests (by decide)

/-- The connection that a request has added. -/
def Req.added : (r : Req H) → r.Ans → Option Handle
  | .insert _, new => some new
  | .openPcb _, new => some new
  | .wrap _ _, .ok new => some new
  | _, _ => none

/-- A request that adds a connection is answered with the handle that is recorded. -/
theorem exec_added (k : Nat) (r : Req H) :
    Recorded.Ends (Recorded.exec b k r) w fun a t _ => ∀ new, r.added a = some new → births t = [new] := by
  have hinsert : ∀ layer w', Recorded.Ends (Recorded.insert b layer) w' fun id t _ => births t = [id] := by
    intro layer w'
    unfold Recorded.insert Stack.insert
    simp only [Recorded.ends_bind, Recorded.ends_lift, Recorded.ends_record, Exec.ends_bind, ends_getSlots,
      ends_modifySlots, ends_note, Exec.ends_pure]
    rfl
  cases k with
  | zero => exact (Recorded.ends_lift _).2 (ends_throw _)
  | succ k =>
    cases r with
    | insert layer =>
      refine (hinsert layer w).mono fun id t _ ht new hnew => ?_
      cases hnew
      exact ht
    | openPcb p =>
      show Recorded.Ends (Recorded.openPcb b p) w _
      unfold Recorded.openPcb
      simp only [Recorded.ends_bind, Recorded.ends_lift, ends_getSlots]
      intro _ w' _
      refine (hinsert _ w').mono fun id t _ ht new hnew => ?_
      cases hnew
      exact ht
    | wrap inner layer =>
      show Recorded.Ends (Recorded.wrap b inner layer) w _
      unfold Recorded.wrap
      rw [Recorded.ends_bind, Recorded.ends_lift, ends_lookup]
      split
      · refine (Recorded.ends_pure _).2 fun new hnew => ?_
        cases hnew
      · split
        · refine (Recorded.ends_pure _).2 fun new hnew => ?_
          cases hnew
        · refine (Recorded.ends_bind _ _).2 ((hinsert layer w).mono fun id t w' ht => ?_)
          simp only [Recorded.ends_bind, Recorded.ends_lift, ends_modifySlots, ends_note, Recorded.ends_pure]
          intro new hnew
          cases hnew
          simpa using ht
    | _ =>
      intro a w' _ new hnew
      cases hnew

/-- **Handles are given out once, and stale ones are inert.** A request that adds a connection is answered with the
handle that is recorded as having come. As long as no slot was vacated so often that its counter has started over:

* no handle is given out twice, and one that was given out names a connection until that goes, and never after;
* so it is at each moment of a run that the application can see, in its callbacks or outside, and what has gone at one
  of them does not come back at a later one.

And at whatever moment a run is interrupted, in the callbacks or outside, whatever is asked of a handle that names
nothing changes nothing. -/
theorem stale_handles (fuel : Nat) (b : Behaviour H) (p : Act H α) (c : Behaviour H.watcher) (q : Act H.watcher β)
    (w : World H) (v : World H.watcher) (hw : w.stack = {}) (hv : v.stack = {}) (hm : v.memory.2 = []) :
    (∀ k r w, Recorded.Ends (Recorded.exec b k r) w fun a t _ => ∀ new, r.added a = some new → births t = [new]) ∧
    (∀ a w', run b fuel p w = .ok a w' → ∃ t, Recorded.run b fuel p w = .ok (a, t) w' ∧ (Bounded t →
      (births t).Nodup ∧ ∀ id, w'.stack.isAlive id = true ↔ .born id ∈ t ∧ .freed id ∉ t)) ∧
    (∀ a v', run c.watcher fuel (watched q) v = .ok a v' →
      ∃ t, Recorded.run c.watcher fuel (watched q) v = .ok (a, t) v' ∧ (Bounded t →
        (births t).Nodup ∧ (∃ dates, Dated t v'.memory.2 dates) ∧
        ∀ early m late, v'.memory.2 = early ++ m :: late → ∀ id, (∃ e ∈ early, e id = true) → m id = false →
          ∀ l ∈ late, l id = false)) ∧
    ∀ w', leaves (run b fuel p) w = some w' → ∀ id, w'.stack.isAlive id = false → Inert b w' id := by
  refine ⟨fun k r w => exec_added k r, fun a w' hrun => ?_, fun a v' hrun => ?_, fun w' hl id hid => ?_⟩
  · obtain ⟨t, ht⟩ := Recorded.exists_record (Recorded.forget_run fuel p) hrun
    refine ⟨t, ht, fun hb => ?_⟩
    have hledger := Recorded.run_ledger fuel p hw ht hb
    exact ⟨hledger.fresh, fun id => hledger.alive_iff⟩
  · obtain ⟨t, ht⟩ := Recorded.exists_record (Recorded.forget_run fuel (watched q)) hrun
    refine ⟨t, ht, fun hb => ?_⟩
    have hledger := Recorded.run_ledger fuel (watched q) hv ht hb
    obtain ⟨dates, hdated⟩ := Recorded.run_dated fuel q hv hm ht hb
    refine ⟨hledger.fresh, ⟨dates, hdated⟩, fun early m late heq id hearly hgone => ?_⟩
    rw [heq] at hdated
    exact hdated.buried hearly hgone
  · exact exec_absent hid (leaves_quiet fuel p hw hl)

/-! A connection that is aborted, another that takes its slot, and an operation on the handle of the first. -/

/-- The first connection is aborted before the second comes. -/
def renew : Act meddler Handle :=
  .ask (.insert (.passthrough "first")) fun first =>
  .ask (.ask first .abort) fun _ =>
  .ask (.insert (.passthrough "second")) fun _ => .done first

/-- The same for an application that looks around. -/
def renewing : Behaviour meddler.watcher where
  callback other _ := .ask (.ask other .abort) fun _ => .done (other, .ok ())
  layer l := nomatch l
  layerName l := nomatch l
  pcb p := nomatch p
  note _ m := m
  engine := meddling.engine
  newEngine := meddling.newEngine

/-- What it does. -/
def renewed : Act meddler.watcher Handle :=
  .ask (.insert (.passthrough "first")) fun first =>
  .ask (.ask first .abort) fun _ =>
  .ask (.insert (.passthrough "second")) fun _ =>
  .ask (.lookup first) fun _ => .done first

/-- A record that is short enough. -/
theorem bounded_of_length {t : List (Mark H)} (h : t.length < 2 ^ 32) : Bounded t := fun i => by
  refine Nat.lt_of_le_of_lt (Nat.le_trans List.countP_le_length ?_) h
  exact List.length_filterMap_le _ _

theorem stale_handles_renew : ∃ (w' : World meddler) (t : List (Mark meddler)),
    run meddling 9 renew { shared := (), memory := () } = .ok ⟨0, 0⟩ w' ∧
    births t = [⟨0, 0⟩, ⟨0, 1⟩] ∧ w'.stack.isAlive ⟨0, 1⟩ = true ∧ .freed ⟨0, 1⟩ ∉ t ∧ Inert meddling w' ⟨0, 0⟩ ∧
    ∃ v', run renewing.watcher 9 (watched renewed) { shared := (), memory := ((), []) } = .ok ⟨0, 0⟩ v' ∧
      v'.memory.2.map (· ⟨0, 0⟩) = [false, true, false, false] ∧ ∃ (u : List (Mark meddler.watcher)) (dates : _),
        Dated u v'.memory.2 dates := by
  have hreaches : Exec.reaches (run meddling 9 renew) { shared := (), memory := () }
      (fun a w => a = ⟨0, 0⟩ && !w.stack.isAlive ⟨0, 0⟩ && w.stack.isAlive ⟨0, 1⟩) = true := by decide +kernel
  have hreaches' : Exec.reaches (run renewing.watcher 9 (watched renewed)) { shared := (), memory := ((), []) }
      (fun a w => a = ⟨0, 0⟩ && w.memory.2.map (· ⟨0, 0⟩) = [false, true, false, false]) = true := by decide +kernel
  obtain ⟨a, w', hrun, hend⟩ := Exec.exists_of_reaches hreaches
  obtain ⟨c, v', hrun', hend'⟩ := Exec.exists_of_reaches hreaches'
  simp only [Bool.and_eq_true, decide_eq_true_eq, Bool.not_eq_true'] at hend hend'
  obtain ⟨⟨rfl, hdead⟩, hlive⟩ := hend
  obtain ⟨rfl, hseen⟩ := hend'
  obtain ⟨-, hrecord, hmoments, hinert⟩ := stale_handles 9 meddling renew renewing renewed
    { shared := (), memory := () } { shared := (), memory := ((), []) } rfl rfl rfl
  obtain ⟨t, ht, hfresh⟩ := hrecord _ _ hrun
  obtain ⟨u, hu, hdated⟩ := hmoments _ _ hrun'
  have ht' : t = recordOf (Recorded.run meddling 9 renew { shared := (), memory := () }) := by
    rw [ht]
    rfl
  have hu' : u = recordOf (Recorded.run renewing.watcher 9 (watched renewed) { shared := (), memory := ((), []) }) := by
    rw [hu]
    rfl
  have hb : Bounded t := bounded_of_length (by rw [ht']; decide +kernel)
  have hb' : Bounded u := bounded_of_length (by rw [hu']; decide +kernel)
  have hbirths : births t = [⟨0, 0⟩, ⟨0, 1⟩] := by
    rw [ht']
    decide +kernel
  obtain ⟨-, ⟨dates, hdates⟩, -⟩ := hdated hb'
  have hstays := (((hfresh hb).2 _).1 hlive).2
  have hleft : leaves (run meddling 9 renew) { shared := (), memory := () } = some w' := by
    unfold leaves
    rw [hrun]
  exact ⟨w', t, hrun, hbirths, hlive, hstays, hinert w' hleft _ hdead, v', hrun', hseen, u, dates, hdates⟩

end Stack

end Conduit
