import Conduit.Proofs.Stack.Docile
import Conduit.Proofs.Stack.Reinstated

/-!
# Runs that settle

Below a docile application with plain connections only, every step of the net is done with what it brings, and leaves the
net less work. So the steps come to an end, and then the net stands still; unless a callback acknowledges more than a
counter can hold, which halts the run.

* `Stack.step_comes`: **what a step comes to.**
* `Stack.settleNet_comes`: the steps come to an end.
* `Stack.run_settles`: **from whatever an application has done, its net settles.**
* `Stack.greedy_never_settles`: an application that acknowledges too much.
-/

namespace Conduit

open Exec Slots Loopback

variable {H : Host} {b : Behaviour H} {w w' w₀ : World H} {x : Handle} {o : Options} {n : Net} {k : Nat} {α : Type}

namespace Stack

/-! ## Steps -/

theorem work_acknowledge (n : Net) (i len : Nat) : (n.acknowledge i len).work ≤ n.work :=
  Net.work_update_le fun _ => Nat.le_refl _

/-- An endpoint gets a connection, which is a plain one. -/
theorem openPcb_comes (p : PcbRef H.Pcb) (hs : w.stack.Calm false []) :
    Comes (openPcb b p) w Overflows fun _ w' => w'.stack.Calm false [] ∧
      (∀ x, w.stack.isAlive x = true → w'.stack.isAlive x = true) ∧ w'.net.work ≤ w.net.work := by
  unfold openPcb
  rw [comes_bind, comes_getSlots, comes_bind]
  refine (performPcb_comes (.attach _) p).mono fun _ w' hadds => ?_
  have hstack : w'.stack = w.stack := by rw [hadds.stack, List.append_nil]
  unfold insert
  rw [comes_bind, comes_getSlots, comes_bind, comes_modifySlots, comes_bind, comes_note, comes_pure, hstack]
  obtain ⟨hlevel, hqueue⟩ := insert_frame w.stack (layerName b (.plain (Plain.ofPcb p))) (.plain (Plain.ofPcb p))
  refine ⟨⟨hs.toFlat.insert _ _, hlevel.depth.trans hs.depth, hlevel.pumping.trans hs.pumping, hqueue.trans hs.queue⟩,
    fun x hx => ?_, hadds.work⟩
  obtain ⟨e, he⟩ := isAlive_iff.1 hx
  have hne : x ≠ w.stack.nextHandle := fun hc => by
    rw [hc, find?_nextHandle hs.counted] at he
    cases he
  refine isAlive_iff.2 ⟨e, ?_⟩
  rw [find?_insert hs.counted, if_neg hne]
  exact he

variable (hb : b.Docile)
include hb

/-- A connection that an endpoint has got is brought to the listener, or aborted. -/
theorem accepted_comes (p : PcbRef H.Pcb) (hs : w.stack.Calm false []) :
    Comes (dispatch b (exec b (k + 5)) x (.accepted p)) w Overflows fun _ w' =>
      w'.stack.Calm false [] ∧ w'.net.work ≤ w.net.work + 1 := by
  unfold dispatch
  rw [comes_bind, comes_getSlots]
  split
  · rename_i hx
    rw [comes_bind]
    refine (openPcb_comes p hs).mono ?_
    rintro new w' ⟨hcalm, halive, hwork⟩
    rw [comes_bind]
    refine (report_comes hb _ hcalm).mono ?_
    rintro r w'' ⟨hr, hcalm', hwork'⟩
    obtain rfl := hr (halive x hx)
    exact (comes_pure _).2 ⟨hcalm', Nat.le_trans hwork' (Nat.add_le_add_right hwork 1)⟩
  · rw [comes_bind, comes_note, comes_bind]
    generalize b.note _ w.memory = m
    refine (performPcb_comes (w := { w with memory := m }) .abort p).mono fun _ w' hadds => (comes_pure _).2 ⟨?_, hadds.work⟩
    rw [hadds.stack, List.append_nil]
    exact hs

theorem event_comes (event : Event) (hs : w.stack.Calm false []) :
    Comes (dispatch b (exec b (k + 5)) x (.event event)) w Overflows fun _ w' =>
      w'.stack.Calm false [] ∧ w'.net.work ≤ w.net.work + event.toll :=
  (report_comes hb event hs).mono fun _ _ h => h.2

/-- What a step brings to an endpoint is brought to its connection and to the application. -/
theorem brought_comes {r : Result (Nat × Delivery)} (hr : w.net.next = some r) (hs : w.stack.Calm false []) :
    Comes (stepNet b (exec b (k + 5))) w Overflows fun more w' =>
      more = true ∧ w'.stack.Calm false [] ∧ w'.net.work ≤ r.net.work + r.value.2.weight := by
  unfold stepNet
  rw [comes_bind, comes_get, hr]
  obtain ⟨net, ns, i, d⟩ := r
  dsimp only
  rw [comes_bind, comes_modify, comes_bind]
  refine comes_notes _ fun m => ?_
  dsimp only
  cases ho : (net.pcb i).owner with
  | none =>
    cases d with
    | nothing => exact (comes_pure _).2 ⟨rfl, hs, Nat.le_refl _⟩
    | reset =>
      refine (comes_bind _ _).2 ((comes_modify _).2 ((comes_pure _).2 ⟨rfl, hs, ?_⟩))
      exact Net.work_update_le fun _ => Nat.le_refl _
    | accept new =>
      refine (comes_bind _ _).2 ((performPcb_comes (w := { w with net, memory := m }) .abort _).mono fun _ w' hadds => ?_)
      refine (comes_pure _).2 ⟨rfl, ?_, hadds.work⟩
      rw [hadds.stack, List.append_nil]
      exact hs
    | event e =>
      cases e with
      | recv data => exact (comes_bind _ _).2 ((comes_modify _).2 ((comes_pure _).2 ⟨rfl, hs, work_acknowledge _ _ _⟩))
      | _ => exact (comes_pure _).2 ⟨rfl, hs, Nat.le_add_right _ _⟩
  | some id =>
    cases d with
    | nothing => exact (comes_pure _).2 ⟨rfl, hs, Nat.le_refl _⟩
    | reset =>
      refine (comes_bind _ _).2 ((comes_modify _).2 ?_)
      rw [comes_bind, comes_note, comes_bind]
      generalize b.note _ _ = m
      refine (event_comes (w := { w with net := net.update i fun p => { p with owner := none }, memory := m }) hb _ hs).mono ?_
      rintro - w' ⟨hcalm, hwork⟩
      refine (comes_pure _).2 ⟨rfl, hcalm, Nat.le_trans hwork (Nat.add_le_add_right ?_ 0)⟩
      exact Net.work_update_le fun _ => Nat.le_refl _
    | accept new =>
      refine (comes_bind _ _).2 ((accepted_comes (w := { w with net, memory := m }) hb _ hs).mono ?_)
      rintro - w' ⟨hcalm, hwork⟩
      exact (comes_pure _).2 ⟨rfl, hcalm, hwork⟩
    | event e =>
      refine (comes_bind _ _).2 ((event_comes (w := { w with net, memory := m }) hb e hs).mono ?_)
      rintro v w' ⟨hcalm, hwork⟩
      cases v with
      | ok u => exact (comes_pure _).2 ⟨rfl, hcalm, hwork⟩
      | error f => exact (comes_bind _ _).2 ((comes_note _).2 ((comes_pure _).2 ⟨rfl, hcalm, hwork⟩))

omit hb in
/-- Where there is no step, nothing changes. -/
theorem stepNet_still {A : Answers H} (h : w.net.next = none) : stepNet b A w = .ok false w := by
  have hcomes : Comes (stepNet b A) w (fun _ _ => False) fun more w' => more = false ∧ w' = w := by
    unfold stepNet
    rw [comes_bind, comes_get, h]
    exact (comes_pure _).2 ⟨rfl, rfl⟩
  unfold Comes at hcomes
  split at hcomes
  · rename_i hrun
    obtain ⟨rfl, rfl⟩ := hcomes
    exact hrun
  · exact hcomes.elim

omit hb in
/-- A step that brings something says so. -/
theorem stepNet_more {A : Answers H} {r : Result (Nat × Delivery)} (hr : w.net.next = some r) :
    Exec.Ends (stepNet b A) w fun more _ => more = true := by
  have hdone : ∀ {β : Type} (x : Exec H β) (w : World H),
      Exec.Ends (x >>= fun _ => pure true) w fun more _ => more = true := fun x w =>
    (Exec.ends_bind _ _).2 fun _ _ _ => (Exec.ends_pure _).2 rfl
  unfold stepNet
  rw [Exec.ends_bind, Exec.ends_get, hr]
  obtain ⟨net, ns, i, d⟩ := r
  dsimp only
  rw [Exec.ends_bind, Exec.ends_modify, Exec.ends_bind]
  intro _ w₁ _
  cases (net.pcb i).owner with
  | none =>
    cases d with
    | nothing => exact (Exec.ends_pure _).2 rfl
    | reset => exact hdone _ _
    | accept new => exact hdone _ _
    | event e =>
      cases e with
      | recv data => exact hdone _ _
      | _ => exact (Exec.ends_pure _).2 rfl
  | some id =>
    cases d with
    | nothing => exact (Exec.ends_pure _).2 rfl
    | reset => exact (Exec.ends_bind _ _).2 fun _ _ _ => (Exec.ends_bind _ _).2 fun _ _ _ => hdone _ _
    | accept new => exact hdone _ _
    | event e =>
      refine (Exec.ends_bind _ _).2 fun v w' _ => ?_
      cases v with
      | ok u => exact (Exec.ends_pure _).2 rfl
      | error f => exact hdone _ _

omit hb in
/-- A step that brings nothing has found nothing. -/
theorem next_of_step (h : exec b k .step w = .ok false w') : w.net.next = none ∧ w' = w := by
  cases k with
  | zero => cases h
  | succ k =>
    change stepNet b (exec b k) w = _ at h
    cases hr : w.net.next with
    | none =>
      rw [stepNet_still hr] at h
      cases h
      exact ⟨rfl, rfl⟩
    | some r => exact absurd (stepNet_more hr _ _ h) Bool.false_ne_true

/-- **What a step comes to**: there is less work, or there was nothing to do. -/
theorem step_comes (hs : w.stack.Calm false []) (hw : ∀ i, (w.net.pcb i).unsent.WellFormed) :
    Comes (exec b (k + 6) .step) w Overflows fun more w' =>
      (more = true ∧ w'.stack.Calm false [] ∧ w'.net.work + 1 ≤ w.net.work) ∨
        (more = false ∧ w' = w ∧ w.net.next = none) := by
  cases hr : w.net.next with
  | none =>
    unfold Comes
    rw [show exec b (k + 6) .step w = _ from stepNet_still hr]
    exact .inr ⟨rfl, rfl, rfl⟩
  | some r =>
    have hless := Net.work_next hw hr
    refine (brought_comes (k := k) hb hr hs).mono ?_
    rintro more w' ⟨hmore, hcalm, hwork⟩
    exact .inl ⟨hmore, hcalm, by omega⟩

/-! ## Runs -/

omit hb in
/-- A net is ready to send, whatever is asked. -/
theorem lasts_ready (o : Options) : Lasts fun n => n.Ready o := fun _ _ _ hn h => Net.undergo_ready hn h

/-- The steps come to an end, when more of them are allowed than there is work. -/
theorem settleNet_comes (ho : o.invalid? = none) (limit : Nat) (done : Nat) (hs : w.stack.Calm false [])
    (hn : w.net.Ready o) (hl : w.net.work < limit) :
    Comes (settleNet b (exec b (k + 6)) limit done) w Overflows fun steps w' => steps ≤ done + w.net.work ∧
      exec b (k + 6) .step w' = .ok false w' ∧ w'.net.Standstill := by
  induction limit generalizing done w with
  | zero => exact absurd hl (Nat.not_lt_zero _)
  | succ limit ih =>
    unfold settleNet
    rw [comes_bind]
    have hready := exec_guards (b := b) (lasts_ready o) (k + 6) .step w hn
    refine ((step_comes hb hs fun i => (hn.fits i).stored).and hready).mono ?_
    rintro more w' ⟨⟨rfl, hcalm, hless⟩ | ⟨rfl, rfl, hnext⟩, hn'⟩
    · rw [if_pos rfl]
      refine (ih (done + 1) hcalm hn' (by omega)).mono ?_
      rintro steps w'' ⟨hsteps, hstill⟩
      exact ⟨by omega, hstill⟩
    · rw [if_neg Bool.false_ne_true]
      exact (comes_pure _).2 ⟨Nat.le_add_right _ _, stepNet_still hnext, Net.standstill hn' ho hnext⟩

omit hb in
theorem run_counted {p : Act H α} {a : α} (hs : w₀.stack = {}) (h : run b k p w₀ = .ok a w) : w.stack.Counted := by
  obtain ⟨t, ht⟩ := Recorded.exists_record (Recorded.forget_run k p) h
  have hcounted : w₀.stack.Counted := hs ▸ idle_empty.sound.toCounted
  exact (Recorded.run_upholds (fun _ _ _ hj => hj) (Recorded.steady_departed b ⟨0, 0⟩) k p [] w₀
    ⟨hcounted, fun hc => absurd hc List.not_mem_nil⟩ _ w ht).1

omit hb in
/-- No layer runs when a run has ended, and no event waits. -/
theorem run_calm {p : Act H α} {a : α} (hs : w₀.stack = {}) (h : run b k p w₀ = .ok a w) (hp : w.stack.AllPlain) :
    w.stack.Calm false [] := by
  have hquiet : w₀.stack.Quiet := by
    rw [hs]
    exact .inr (.inr rfl)
  have hrests := program_rests (exec_settles b k) p hquiet
  unfold Rests at hrests
  rw [show p.run (exec b k) w₀ = .ok a w from h] at hrests
  dsimp only at hrests
  have hdepth : w.stack.depth = 0 := by
    rw [hrests.depth, hs]
  have hpumping : w.stack.pumping = false := by
    rw [hrests.pumping, hs]
  refine ⟨⟨run_counted hs h, hp⟩, hdepth, hpumping, ?_⟩
  rcases hrests.quiet with hd | hp | hqueue
  · exact absurd hdepth (Nat.ne_of_gt hd)
  · rw [hp] at hpumping
    cases hpumping
  · exact hqueue

/-- **The net settles.** Whatever an application with docile callbacks has done, as long as its connections are plain ones
now: any number of steps that is greater than the work left is enough, and then there is no step, and the net stands still;
or a callback acknowledges more than a counter can hold, and nothing else halts the steps. And whenever there is no step,
nothing has changed, and the net stands still. -/
theorem run_settles {o : Options} (ho : o.invalid? = none) (fuel : Nat) (p : Act H α) {a : α} (hs : w₀.stack = {})
    (hn : w₀.net = { options := o }) (h : run b fuel p w₀ = .ok a w) (hp : w.stack.AllPlain) :
    (∀ k limit, w.net.work < limit →
      Comes (settleNet b (exec b (k + 6)) limit 0) w (fun e _ => e = .overflow) fun steps w' => steps ≤ w.net.work ∧
        exec b (k + 6) .step w' = .ok false w' ∧ w'.net.Standstill) ∧
    ∀ k w', exec b k .step w = .ok false w' → w' = w ∧ w.net.Standstill := by
  have hcalm := run_calm hs h hp
  have hready : w.net.Ready o := by
    have hguards := guards_program (exec_guards (b := b) (lasts_ready o) fuel) p w₀ (hn ▸ Net.ready_new o)
    exact hguards.ends a w h
  refine ⟨fun k limit hl => ?_, fun k w' hstep => ?_⟩
  · have := settleNet_comes (k := k) hb ho limit 0 hcalm hready hl
    rwa [Nat.zero_add] at this
  · obtain ⟨hnext, rfl⟩ := next_of_step hstep
    exact ⟨rfl, Net.standstill hready ho hnext⟩

/-! An application that takes all data, and acknowledges the same amount each time. -/

omit hb

/-- Callbacks that accept what comes, and acknowledge `len` bytes for all data that they are called for. -/
def acking (len : Nat) : Behaviour meddler :=
  { meddling with
    callback := fun code call =>
      match call with
      | .accept _ new => .ask (.register new .recv code) fun _ => .done (code, .ok ())
      | .recv me (some _) => .ask (.ask me (.recved len)) fun _ => .done (code, .ok ())
      | _ => .done (code, .ok ()) }

theorem acking_docile (len : Nat) : (acking len).Docile := by
  intro code call
  cases call with
  | accept me new => exact ⟨trivial, fun _ => trivial⟩
  | recv me data =>
    cases data with
    | none => trivial
    | some data => exact ⟨trivial, fun _ => trivial⟩
  | _ => trivial

/-- Two bytes for a connection that was accepted, and a third once they are taken. -/
def thrice : Act meddler Unit :=
  .ask .newPcb fun i =>
  .ask (.openPcb (.loopback i)) fun listener =>
  .ask (.ask listener (.bind Net.doorway)) fun _ =>
  .ask (.ask listener (.listen 1)) fun _ =>
  .ask (.register listener .accept ⟨9, 0⟩) fun _ =>
  .ask .newPcb fun j =>
  .ask (.openPcb (.loopback j)) fun caller =>
  .ask (.ask caller (.connect Net.doorway)) fun _ =>
  .ask .settle fun _ =>
  .ask (.ask caller (.write [1, 2] ⟨1⟩)) fun _ =>
  .ask .settle fun _ =>
  .ask (.ask caller (.write [3] ⟨1⟩)) fun _ => .done ()

/-- Whether all connections are plain ones. -/
def isAllPlain (s : Slots meddler) : Bool :=
  s.slots.all fun slot =>
    match slot.entry with
    | none => true
    | some { layer := some (.plain _), inner := none, outer := none, .. } => true
    | some _ => false

theorem isAllPlain_plain {s : Slots meddler} (h : isAllPlain s = true) : s.AllPlain := by
  intro x e he
  unfold find? at he
  split at he
  · rename_i slot hslot
    split at he
    · have hmem := Array.all_eq_true_iff_forall_mem.1 h slot (Array.mem_of_getElem? hslot)
      rw [he] at hmem
      split at hmem
      · rename_i hnone
        cases hnone
      · rename_i hsome
        cases hsome
        exact ⟨⟨_, rfl⟩, rfl, rfl⟩
      · cases hmem
    · cases he
  · cases he

/-- One byte at a time: the net settles. -/
theorem run_settles_acking : ∃ w steps w', Stack.run (acking 1) 20 thrice untouched = .ok () w ∧ w.stack.AllPlain ∧
    settleNet (acking 1) (exec (acking 1) 20) 100 0 w = .ok steps w' ∧ 0 < steps ∧ steps ≤ w.net.work ∧
    exec (acking 1) 20 .step w' = .ok false w' ∧ w'.net.Standstill := by
  have hreaches : Exec.reaches (Stack.run (acking 1) 20 thrice) untouched (fun _ w =>
      isAllPlain w.stack && decide (w.net.work < 100) &&
      Exec.reaches (settleNet (acking 1) (exec (acking 1) 20) 100 0) w fun steps _ => decide (0 < steps)) = true := by
    decide +kernel
  obtain ⟨_, w, hrun, hend⟩ := Exec.exists_of_reaches hreaches
  simp only [Bool.and_eq_true, decide_eq_true_eq] at hend
  obtain ⟨⟨hplain, hwork⟩, hsettles⟩ := hend
  obtain ⟨steps, w', hsettle, hpos⟩ := Exec.exists_of_reaches hsettles
  have hcomes := (run_settles (o := {}) (acking_docile 1) rfl 20 thrice rfl rfl hrun (isAllPlain_plain hplain)).1 14 100 hwork
  unfold Comes at hcomes
  rw [hsettle] at hcomes
  exact ⟨w, steps, w', hrun, isAllPlain_plain hplain, hsettle, of_decide_eq_true hpos, hcomes⟩

/-- Whether `x`, run from `w`, halts as `e` says. -/
def haltsBy (x : Exec H α) (w : World H) (e : Halt) : Bool :=
  match x w with
  | .ok _ _ => false
  | .error e' _ => e' = e

/-- **The greatest amount each time**: the step that brings the second piece of data halts. -/
theorem greedy_never_settles : ∃ w w', (acking (wordBound - 1)).Docile ∧ ({} : Options).invalid? = none ∧
    Stack.run (acking (wordBound - 1)) 20 thrice untouched = .ok () w ∧ w.stack.AllPlain ∧
    exec (acking (wordBound - 1)) 20 .step w = .error .overflow w' := by
  have hreaches : Exec.reaches (Stack.run (acking (wordBound - 1)) 20 thrice) untouched (fun _ w =>
      isAllPlain w.stack && haltsBy (exec (acking (wordBound - 1)) 20 .step) w .overflow) = true := by
    decide +kernel
  obtain ⟨_, w, hrun, hend⟩ := Exec.exists_of_reaches hreaches
  simp only [Bool.and_eq_true] at hend
  obtain ⟨hplain, hhalts⟩ := hend
  unfold haltsBy at hhalts
  split at hhalts
  · cases hhalts
  · rename_i e w' hstep
    obtain rfl := of_decide_eq_true hhalts
    exact ⟨w, w', acking_docile _, rfl, hrun, isAllPlain_plain hplain, hstep⟩

end Stack

end Conduit
