import Conduit.Proofs.Stack.Orderly

/-!
# What requests leave

* `Recorded.wrap_ends`: a layer is put above a connection.
* `Recorded.exec_orderly`: **every request leaves the slots in order**, and its record true.
* `Recorded.run_ends`: so does every application.
-/

namespace Conduit

open Exec Stack Slots

variable {H : Host} {b : Behaviour H} {s s' : Slots H} {t : List (Mark H)} {R : List Handle} {id : Handle} {w : World H}

namespace Recorded

/-! ## Connections that come -/

/-- A connection has come, or some have; no event has. -/
structure Grown (R : List Handle) (s : Slots H) (t : List (Mark H)) (s' : Slots H) : Prop where
  sound : s'.Sound R
  pumping : s'.pumping = s.pumping
  queue : s'.queue = s.queue
  keeps : Keeps s t s'

theorem Grown.refl (hs : s.Sound R) : Grown R s [] s := ⟨hs, rfl, rfl, .refl s⟩

theorem Grown.carried (h : Grown [] s t s') (hi : s.Idle) : Carried [] s t s' :=
  ⟨h.sound, h.pumping, h.keeps, fun hR => absurd rfl hR, fun _ hp => h.queue.trans (hi.settled hp)⟩

theorem grown_insert (hs : s.Sound R) (name : String) (layer : Layer H) :
    Grown R s [.born s.nextHandle] (s.insert name layer) := by
  have hqueue : (s.insert name layer).queue = s.queue ∧ (s.insert name layer).pumping = s.pumping := by
    unfold Slots.insert
    split <;> exact ⟨rfl, rfl⟩
  refine ⟨hs.insert name layer, hqueue.2, hqueue.1, .born (fun x => ?_) ?_⟩
  · unfold isAlive
    rw [find?_insert hs.toCounted]
    by_cases hx : x = s.nextHandle <;> simp [hx]
  · unfold outstanding
    rw [hqueue.1]

theorem insert_ends (hs : w.stack.Sound R) (layer : Layer H) :
    Ends (insert b layer) w fun id t w' => id = w.stack.nextHandle ∧
      w'.stack = w.stack.insert (layerName b layer) layer ∧ Grown R w.stack t w'.stack := by
  unfold insert Stack.insert
  simp only [ends_bind, ends_lift, ends_getSlots, ends_record, Exec.ends_bind, ends_modifySlots, Stack.ends_note,
    Exec.ends_pure]
  exact ⟨trivial, trivial, by simpa using grown_insert hs _ layer⟩

theorem openPcb_ends (hs : w.stack.Sound R) (p : PcbRef H.Pcb) :
    Ends (openPcb b p) w fun _ t w' => Grown R w.stack t w'.stack := by
  unfold openPcb
  simp only [ends_bind, ends_lift, ends_getSlots]
  refine (ends_performPcb p _).mono fun _ w₁ hw₁ => ?_
  have hs₁ : w₁.stack.Sound R := hw₁ ▸ hs
  refine (insert_ends hs₁ _).mono fun _ t w₂ h => ?_
  rw [← hw₁]
  exact h.2.2

/-- A layer is put above a connection that has none above it. -/
theorem wrap_ends (hs : w.stack.Sound R) (inner : Handle) (layer : Layer H) :
    Ends (wrap b inner layer) w fun _ t w' => Grown R w.stack t w'.stack := by
  unfold wrap
  simp only [ends_bind, ends_lift, ends_lookup]
  cases hf : w.stack.find? inner with
  | none => exact (ends_pure _).2 (.refl hs)
  | some e =>
    cases ho : e.outer with
    | some outer =>
      simp only [ho, Option.isSome_some, if_true]
      exact (ends_pure _).2 (.refl hs)
    | none =>
      simp only [ho, Option.isSome_none, Bool.false_eq_true, if_false]
      refine (ends_bind _ _).2 ((insert_ends hs layer).mono ?_)
      rintro new t w₁ ⟨rfl, hw₁, hgrown⟩
      simp only [ends_bind, ends_lift, ends_modifySlots, ends_note, ends_pure, List.append_nil]
      -- the new connection is another than the one below
      have hne : inner ≠ w.stack.nextHandle := by
        intro hc
        rw [hc, find?_nextHandle hs.toCounted] at hf
        cases hf
      have hinner : w₁.stack.find? inner = some e := by
        rw [hw₁, find?_insert hs.toCounted, if_neg hne]
        exact hf
      have hnew : w₁.stack.find? w.stack.nextHandle = some { layer := some layer, name := layerName b layer } := by
        rw [hw₁, find?_insert hs.toCounted, if_pos rfl]
      refine ⟨hgrown.sound.link hinner ho hnew rfl rfl hne, hgrown.pumping, hgrown.queue, ?_⟩
      have hlinked : Keeps w₁.stack [] (w₁.stack.link inner w.stack.nextHandle) := by
        refine .of_same (fun x => ?_) rfl
        unfold Slots.link
        rw [isAlive_update, isAlive_update]
      have hkeeps := hgrown.keeps.trans hlinked
      rwa [List.append_nil] at hkeeps

/-! ## What a TCP engine reports -/

section

variable {A : Answers H} (hA : Orderly A)
include hA

theorem dispatch_ends (id : Handle) (a : Arrival H.Pcb) (hi : w.stack.Idle) :
    Ends (dispatch b A id a) w fun _ t w' => Carried [] w.stack t w'.stack := by
  cases a with
  | event e => exact hA.top _ w hi
  | accepted p =>
    unfold dispatch
    simp only [ends_bind, ends_lift, ends_getSlots]
    cases ha : w.stack.isAlive id with
    | false =>
      simp only [Bool.false_eq_true, if_false, ends_bind, ends_lift, ends_note]
      refine (ends_performPcb p _).mono fun _ w₁ hw₁ => ?_
      rw [ends_pure]
      show Carried [] w.stack [] w₁.stack
      rw [hw₁]
      exact .refl hi
    | true =>
      simp only [if_true]
      refine (ends_bind _ _).2 ((openPcb_ends hi.sound p).mono fun new t w₁ h => ?_)
      have hcarried := h.carried hi
      refine (ends_bind _ _).2 ((hA.top _ w₁ hcarried.idle).mono fun v u w₂ h₂ => ?_)
      have hboth := hcarried.trans h₂
      cases v with
      | ok _ => simpa using hboth
      | error f =>
        refine (ends_bind _ _).2 ((hA.top _ w₂ h₂.idle).mono fun _ v w₃ h₃ => ?_)
        have hall := hboth.trans h₃
        simpa using hall

theorem stepNet_ends (hi : w.stack.Idle) : Ends (stepNet b A) w fun _ t w' => Carried [] w.stack t w'.stack := by
  unfold stepNet
  simp only [ends_bind, ends_lift, Exec.ends_get]
  cases hn : w.net.next with
  | none => exact (ends_pure _).2 (.refl hi)
  | some r =>
    simp only [ends_bind, ends_lift, Exec.ends_modify]
    refine ends_notes _ fun m => ?_
    split
    · -- nothing is to be reported
      exact (ends_pure _).2 (.refl hi)
    · -- a connection has come, of which its listener learns
      refine (ends_bind _ _).2 ((dispatch_ends hA _ _ ?_).mono fun _ t w₁ h => ?_)
      · exact hi
      · simpa using h
    · -- nobody listens any more
      refine (ends_bind _ _).2 ?_
      rw [ends_lift]
      refine (ends_performPcb _ _).mono fun _ w₁ hw₁ => (ends_pure _).2 ?_
      show Carried [] w.stack [] w₁.stack
      rw [hw₁]
      exact .refl hi
    · -- the peer has reset the connection
      refine (ends_bind _ _).2 ?_
      rw [ends_lift, Exec.ends_modify]
      split
      · exact (ends_pure _).2 (.refl hi)
      · refine (ends_bind _ _).2 ?_
        rw [ends_lift, ends_note]
        refine (ends_bind _ _).2 ((dispatch_ends hA _ _ ?_).mono fun _ t w₁ h => ?_)
        · exact hi
        · simpa using h
    · -- an event of which the owner learns
      refine (ends_bind _ _).2 ((dispatch_ends hA _ _ ?_).mono fun v t w₁ h => ?_)
      · exact hi
      · cases v with
        | ok _ => simpa using h
        | error f =>
          simp only [ends_bind, ends_lift, ends_note, ends_pure]
          simpa using h
    · -- data of which nobody learns
      simp only [ends_bind, ends_lift, Exec.ends_modify, ends_pure]
      exact .refl hi
    · -- any other event of which nobody learns
      exact (ends_pure _).2 (.refl hi)

theorem settleNet_ends (n done : Nat) (hi : w.stack.Idle) :
    Ends (settleNet b A n done) w fun _ t w' => Carried [] w.stack t w'.stack := by
  induction n generalizing done w with
  | zero =>
    unfold settleNet
    simp only [ends_bind, ends_lift, ends_note, ends_pure]
    exact .refl hi
  | succ n ih =>
    refine (ends_bind _ _).2 ((hA.top .step w hi).mono fun x t w₁ h => ?_)
    cases x with
    | true => exact (ih (done + 1) h.idle).mono fun _ u w₂ h' => h.trans h'
    | false =>
      refine (ends_pure _).2 ?_
      rw [List.append_nil]
      exact h

theorem polls_ends (due : List Handle) (hi : w.stack.Idle) :
    Ends (due.forM fun id => do let _ ← dispatch b A id (.event .poll)) w fun _ t w' =>
      Carried [] w.stack t w'.stack := by
  induction due generalizing w with
  | nil => exact (ends_pure _).2 (.refl hi)
  | cons id due ih =>
    refine (ends_bind _ _).2 ?_
    refine (ends_bind _ _).2 ((dispatch_ends hA id _ hi).mono fun _ t w₁ h => (ends_pure _).2 ?_)
    refine (ih h.idle).mono fun _ u w₂ h' => ?_
    rw [List.append_nil]
    exact h.trans h'

end

/-! ## All requests -/

variable {A : Answers H} {free : Handle → Recorded H Unit}

/-- What the application registers, and what it forgets. -/
theorem carried_update {f : Entry H → Entry H} (hi : s.Idle) (hin : ∀ e, (f e).inner = e.inner)
    (ho : ∀ e, (f e).outer = e.outer) (hl : ∀ e, (f e).layer = e.layer) : Carried [] s [] (s.update id f) :=
  have hmoved : Moved s [] (s.update id f) := .of_update hi.sound hin ho hl
  ⟨hmoved.sound, hmoved.pumping, hmoved.keeps, fun hR => absurd rfl hR, fun _ hp => hi.settled hp⟩

/-- **Every request leaves the slots in order**, if those that it leads to do. -/
theorem answer_orderly [IsEmpty H.Layer] (hA : Orderly A) (hfree : Frees free) (k : Nat) :
    Orderly (answer b A free k) := by
  refine ⟨⟨?_, ?_⟩, ?_⟩
  · intro R id o w hR hs hc hup hlow
    refine (operate_ends hA hfree k o (fun _ => hlow) hs hc (fun _ => hup) fun hnil => absurd hnil hR).mono ?_
    intro _ t w' h
    exact ⟨h.sound, h.shrinks hR, h.keeps⟩
  · intro R inner l w hs
    refine (wrap_ends hs inner (.secure l)).mono ?_
    intro _ t w' h
    exact ⟨h.sound, h.pumping, h.keeps⟩
  · intro r w hi
    have hnil : ∀ {P : Prop}, ([] : List Handle) ≠ [] → P := fun hR => absurd rfl hR
    cases r with
    | ask id o => exact operate_ends hA hfree k o hnil hi.sound (clear_nil _ _) hnil fun _ => hi.settled
    | insert layer => exact (insert_ends hi.sound layer).mono fun _ t w' h => h.2.2.carried hi
    | wrap inner layer => exact (wrap_ends hi.sound inner layer).mono fun _ t w' h => h.carried hi
    | openPcb p => exact (openPcb_ends hi.sound p).mono fun _ t w' h => h.carried hi
    | dispatch id a => exact dispatch_ends hA id a hi
    | step => exact stepNet_ends hA hi
    | settle => exact settleNet_ends hA _ _ hi
    | tick =>
      unfold answer
      simp only [ends_bind, ends_lift, Exec.ends_get, Exec.ends_modify]
      generalize w.net.tick = ticked
      exact polls_ends (w := { w with net := ticked.1 }) hA _ hi
    | register id kind code =>
      refine (ends_lift _).2 ?_
      unfold Stack.answer
      simp only [Exec.ends_bind, ends_getSlots]
      split
      · simp only [Exec.ends_bind, ends_modifySlots, Exec.ends_pure]
        exact carried_update hi (fun _ => rfl) (fun _ => rfl) fun _ => rfl
      · exact (Exec.ends_pure _).2 (.refl hi)
    | clearCallbacks id =>
      refine (ends_lift _).2 ?_
      unfold Stack.answer
      simp only [ends_modifySlots]
      exact carried_update hi (fun _ => rfl) (fun _ => rfl) fun _ => rfl
    | modifyLayer id f =>
      refine (ends_lift _).2 ?_
      unfold Stack.answer
      simp only [Exec.ends_bind, ends_lookup]
      split
      · rename_i l hl
        -- there is no layer of the application's own
        exact isEmptyElim l
      · exact (Exec.ends_pure _).2 (.refl hi)
    | pcb p o =>
      refine (ends_lift _).2 ((ends_performPcb p o).mono fun _ w' hw => ?_)
      rw [hw]
      exact .refl hi
    | newEngine config name =>
      refine (ends_lift _).2 ((ends_newEngine config name).mono fun _ w' hw => ?_)
      rw [hw]
      exact .refl hi
    | _ =>
      refine (ends_lift _).2 ?_
      unfold Stack.answer
      simp [Carried.refl hi]

/-- **Every request leaves the slots in order**, and its record true. -/
theorem exec_orderly [IsEmpty H.Layer] (k : Nat) : Orderly (exec b k) := by
  induction k with
  | zero => exact ⟨⟨by simp [exec], by simp [exec]⟩, by simp [exec]⟩
  | succ k ih => exact answer_orderly ih (freeEntry_frees ih.toModest k) k

/-- **Whatever an application does, it leaves the slots in order**, and its record true. -/
theorem run_ends [IsEmpty H.Layer] {α : Type} (fuel : Nat) (p : Act H α) (hi : w.stack.Idle) :
    Ends (run b fuel p) w fun _ t w' => Carried [] w.stack t w'.stack :=
  program_ends (exec_orderly fuel) p hi

end Recorded

end Conduit
