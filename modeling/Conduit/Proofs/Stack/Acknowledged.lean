import Conduit.Proofs.Stack.Course
import Conduit.Proofs.Stack.Rearmed
import Conduit.Proofs.Stack.Stale

/-!
# Acknowledging

The application may acknowledge any amount, whatever it has received. A plain layer hands the amount on, and the endpoint
counts no more than it has received; but it adds first, and a sum beyond the machine words halts the run.

* `Slots.Over`: a plain connection over an endpoint of the loopback net.
* `Stack.exec_recved`: what comes of an acknowledgement, in any world.
* `Stack.acknowledging`: **at every moment of every run, an acknowledgement counts exactly what was received of it, or is
  beyond the machine words and halts the run.**
-/

namespace Conduit

open Exec Slots Loopback

variable {H : Host} {b : Behaviour H} {w w₀ : World H} {id : Handle} {i len : Nat} {α : Type}

/-- A plain connection over an endpoint of the loopback net, whose layer is in its slot. -/
def Slots.Over (s : Slots H) (id : Handle) (i : Nat) : Prop :=
  ∃ e l, s.find? id = some e ∧ e.layer = some (.plain l) ∧ l.pcb = some (.loopback i)

/-- An endpoint that has acknowledged `len` bytes more, or all that it has received. -/
def Loopback.Pcb.acknowledging (p : Pcb) (len : Nat) : Pcb := { p with acked := min (p.acked + len) p.received }

namespace Stack

/-- The layer asks its endpoint for nothing else. -/
theorem recved_comes {A : Answers H} {l : Plain H.Pcb} (hp : l.pcb = some (.loopback i)) :
    Comes ((runMethod b A id (.op (.recved len)) (.plain l)).run false) w
      (fun e _ => e = .overflow ∧ wordBound ≤ (w.net.pcb i).acked + len) fun r w' =>
        r = ((.plain l, ()), false) ∧ (w.net.pcb i).acked + len < wordBound ∧
          w' = { w with net := w.net.update i (·.acknowledging len) } := by
  refine comes_run_map ?_
  show Comes ((((Plain.withPcb (.recved len) ()).run l).run (answerLayer b A id)).run false) w _ _
  unfold Plain.withPcb
  simp only [comes_act_bind, comes_act_get, hp]
  refine (comes_act_request _).2 ((comes_run_lift _).2 ?_)
  unfold performPcb
  rw [comes_bind, comes_get]
  have hperform : w.net.perform i (.recved len) = (w.net.recved i len).map fun n => ⟨n, [], ()⟩ := rfl
  rw [hperform]
  unfold Net.recved
  by_cases hword : wordBound ≤ (w.net.pcb i).acked + len
  · rw [if_pos hword]
    exact ⟨rfl, hword⟩
  · rw [if_neg hword]
    exact ⟨rfl, Nat.lt_of_not_le hword, rfl⟩

theorem recved_called (hq : w.stack.Quiet) (hid : w.stack.Over id i) (k len : Nat) :
    Comes (exec b (k + 2) (.ask id (.recved len))) w
      (fun e _ => e = .overflow ∧ wordBound ≤ (w.net.pcb i).acked + len) fun _ w' =>
        (w.net.pcb i).acked + len < wordBound ∧ w' = { w with net := w.net.update i (·.acknowledging len) } := by
  obtain ⟨e, l, he, hl, hp⟩ := hid
  have haway : (w.stack.away id).isAlive id = true := isAlive_away he
  show Comes (call b (exec b (k + 1)) (freeEntry b (exec b (k + 1)) (k + 1)) (k + 1) id (.recved len)) w _ _
  unfold call
  refine (comes_bind _ _).2 (comes_withLayer he hl ((recved_comes hp).mono ?_))
  rintro _ _ ⟨rfl, hword, rfl⟩
  refine ⟨haway, ?_⟩
  have hback : (w.stack.away id).back id (.plain l) = w.stack := back_home he hl
  have hpump : pump b (exec b (k + 1)) (freeEntry b (exec b (k + 1)) (k + 1)) (k + 1)
      { w with stack := (w.stack.away id).back id (.plain l), net := w.net.update i (·.acknowledging len) } =
        .ok () { w with net := w.net.update i (·.acknowledging len) } := by
    rw [hback]
    exact pump_quiet k hq
  simp only [Bool.false_eq_true, if_false, comes_pure, comes_bind]
  show Comes (pump _ _ _ _) _ _ _
  unfold Comes
  rw [hpump]
  exact ⟨hword, rfl⟩

/-- **What comes of an acknowledgement.** A sum within the machine words is counted, as far as the data was received, and
nothing else changes; one beyond them halts the run. -/
theorem exec_recved (hq : w.stack.Quiet) (hid : w.stack.Over id i) (k len : Nat) :
    if (w.net.pcb i).acked + len < wordBound then
      exec b (k + 2) (.ask id (.recved len)) w = .ok () { w with net := w.net.update i (·.acknowledging len) }
    else ∃ w', exec b (k + 2) (.ask id (.recved len)) w = .error .overflow w' := by
  have hcomes := recved_called (b := b) hq hid k len
  unfold Comes at hcomes
  split at hcomes
  · rename_i w' hx
    obtain ⟨hword, rfl⟩ := hcomes
    rw [if_pos hword, hx]
  · rename_i halt w' hx
    obtain ⟨rfl, hword⟩ := hcomes
    rw [if_neg (Nat.not_lt.2 hword)]
    exact ⟨w', hx⟩

/-! ## Every run -/

/-- The net takes a course until a run ends or is interrupted. -/
theorem leaves_course (fuel : Nat) (p : Act H α) (h : leaves (run b fuel p) w₀ = some w) :
    ∃ hs, w₀.net.course hs = .ok w.net := by
  have hcourse := run_takes_course (b := b) fuel p w₀
  unfold Comes at hcourse
  unfold leaves at h
  cases hx : run b fuel p w₀ with
  | ok a w' =>
    rw [hx] at h hcourse
    cases h
    exact hcourse
  | error e w' =>
    rw [hx] at h hcourse
    cases e with
    | outOfFuel => cases h
    | overflow | noFreePort =>
      cases h
      exact hcourse

theorem leaves_fits {o : Options} (fuel : Nat) (p : Act H α) (hn : w₀.net = { options := o })
    (h : leaves (run b fuel p) w₀ = some w) (i : Nat) : (w.net.pcb i).Fits o := by
  obtain ⟨hs, hc⟩ := leaves_course fuel p h
  rw [hn] at hc
  obtain ⟨k, hk, hnet⟩ := Booked.run_of_course (fun _ => {}) hc
  rw [← hnet]
  exact ((Booked.kept_new o).run hk).fits i

/-- **Acknowledging at every moment of every run**, in the callbacks or outside: as long as the sum of what was acknowledged and
of the new amount is a machine word, the amount is counted as far as the data was received, and nothing else changes; the
window does not shrink by it. A sum that is no machine word halts the run, however much of the data was received. -/
theorem acknowledging {o : Options} (b : Behaviour H) (fuel : Nat) (p : Act H α) (hs : w₀.stack = {})
    (hn : w₀.net = { options := o }) (h : leaves (run b fuel p) w₀ = some w) (hid : w.stack.Over id i) (k len : Nat) :
    if (w.net.pcb i).acked + len < wordBound then
      exec b (k + 2) (.ask id (.recved len)) w =
          .ok () { w with net := w.net.update i fun p => { p with acked := min (p.acked + len) p.received } } ∧
        (w.net.pcb i).acked ≤ min ((w.net.pcb i).acked + len) (w.net.pcb i).received ∧
        o.window - (w.net.pcb i).outstanding ≤
          o.window - { w.net.pcb i with acked := min ((w.net.pcb i).acked + len) (w.net.pcb i).received }.outstanding
    else ∃ w', exec b (k + 2) (.ask id (.recved len)) w = .error .overflow w' := by
  have hquiet : w.stack.Quiet := leaves_quiet fuel p hs h
  have hfits := leaves_fits fuel p hn h i
  have hacked := hfits.acked
  have hexec := exec_recved (b := b) hquiet hid k len
  by_cases hword : (w.net.pcb i).acked + len < wordBound
  · rw [if_pos hword] at hexec ⊢
    refine ⟨hexec, by omega, ?_⟩
    unfold Pcb.outstanding
    dsimp only
    omega
  · rw [if_neg hword] at hexec ⊢
    exact hexec

/-! An accepted connection whose application takes two bytes, and acknowledges the first of them. -/

/-- Two bytes for a connection whose application acknowledges nothing when it takes them, but one of them later. -/
def halfway : Act meddler Unit := joining >>= fun _ =>
  .ask (.register ⟨2, 0⟩ .recv ⟨9, 0⟩) fun _ =>
  .ask (.ask ⟨1, 0⟩ (.write [1, 2] ⟨1⟩)) fun _ =>
  .ask .step fun _ =>
  .ask .step fun _ =>
  .ask (.ask ⟨2, 0⟩ (.recved 1)) fun _ => .done ()

/-- Whether a connection is a plain one over an endpoint. -/
def isOver (s : Slots meddler) (id : Handle) (i : Nat) : Bool :=
  match s.find? id with
  | some { layer := some (.plain { pcb := some (.loopback j), .. }), .. } => i = j
  | _ => false

theorem isOver_over {s : Slots meddler} (h : isOver s id i = true) : s.Over id i := by
  unfold isOver at h
  split at h
  · rename_i he
    obtain rfl := of_decide_eq_true h
    exact ⟨_, _, he, rfl, rfl⟩
  · cases h

/-- The world halfway. -/
theorem halfway_reached : ∃ w, Stack.run meddling 20 halfway untouched = .ok () w ∧ w.stack.Over ⟨2, 0⟩ 2 ∧
    (w.net.pcb 2).received = 2 ∧ (w.net.pcb 2).acked = 1 := by
  have hreaches : Exec.reaches (Stack.run meddling 20 halfway) untouched (fun _ w =>
      isOver w.stack ⟨2, 0⟩ 2 && (w.net.pcb 2).received = 2 && (w.net.pcb 2).acked = 1) = true := by decide +kernel
  obtain ⟨_, w, hrun, hend⟩ := Exec.exists_of_reaches hreaches
  simp only [Bool.and_eq_true, decide_eq_true_eq] at hend
  obtain ⟨⟨hover, hreceived⟩, hacked⟩ := hend
  exact ⟨w, hrun, isOver_over hover, hreceived, hacked⟩

theorem halfway_leaves {w : World meddler} (h : Stack.run meddling 20 halfway untouched = .ok () w) :
    leaves (Stack.run meddling 20 halfway) untouched = some w := by
  unfold leaves
  rw [h]

/-- Five bytes more: the one that is left is acknowledged. -/
theorem acknowledging_halfway : ∃ w, Stack.run meddling 20 halfway untouched = .ok () w ∧ w.stack.Over ⟨2, 0⟩ 2 ∧
    (w.net.pcb 2).acked = 1 ∧ (w.net.pcb 2).received = 2 ∧
    exec meddling 20 (.ask ⟨2, 0⟩ (.recved 5)) w =
      .ok () { w with net := w.net.update 2 fun p => { p with acked := min (p.acked + 5) p.received } } := by
  obtain ⟨w, hrun, hover, hreceived, hacked⟩ := halfway_reached
  have hword : (w.net.pcb 2).acked + 5 < wordBound := by
    rw [hacked]
    decide
  have h := acknowledging (o := {}) meddling 20 halfway rfl rfl (halfway_leaves hrun) hover 18 5
  rw [if_pos hword] at h
  exact ⟨w, hrun, hover, hacked, hreceived, h.1⟩

/-- **One byte is acknowledged already, and the greatest machine word halts the run**, although not more than one byte is
left to acknowledge. -/
theorem greatest_amount_halts : ∃ w w', Stack.run meddling 20 halfway untouched = .ok () w ∧ w.stack.Over ⟨2, 0⟩ 2 ∧
    (w.net.pcb 2).acked = 1 ∧ (w.net.pcb 2).received = 2 ∧
    exec meddling 20 (.ask ⟨2, 0⟩ (.recved (wordBound - 1))) w = .error .overflow w' := by
  obtain ⟨w, hrun, hover, hreceived, hacked⟩ := halfway_reached
  have hquiet : w.stack.Quiet := leaves_quiet 20 halfway (by rfl) (halfway_leaves hrun)
  have hpos : 0 < wordBound := by decide
  generalize hlen : wordBound - 1 = len
  have h := exec_recved (b := meddling) hquiet hover 18 len
  rw [if_neg (by omega)] at h
  obtain ⟨w', hexec⟩ := h
  exact ⟨w, w', hrun, hover, hacked, hreceived, hexec⟩

end Stack

end Conduit
