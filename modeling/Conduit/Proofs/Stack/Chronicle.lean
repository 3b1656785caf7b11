import Conduit.Proofs.Stack.Recorded
import Conduit.Proofs.Stack.Sound

/-!
# What the record says of the stack

* `Chronicle`: what the record of a run and the slots that it has left have to do with each other.
* `Keeps`: what has happened, with its record, goes on with every such record.
* `Keeps.born`, `Keeps.freed`, `Keeps.ended`, `Keeps.told`: what a connection's life consists of.
-/

namespace Conduit

variable {H : Host} {s s' s'' : Slots H} {h t u : List (Mark H)} {id new : Handle}

namespace Mark

/-- The connections that have come. -/
def births (t : List (Mark H)) : List Handle := t.filterMap fun
  | .born id => some id
  | _ => none

/-- The connections, with none above them, that have come to their end. -/
def ends (t : List (Mark H)) : List Handle := t.filterMap fun
  | .ended id _ _ => some id
  | _ => none

/-- The ends of which there is somebody to tell. -/
def due (t : List (Mark H)) : List (Handle × Fault × H.Code) := t.filterMap fun
  | .ended id reason (some code) => some (id, reason, code)
  | _ => none

/-- The ends of which somebody was told. -/
def notices (t : List (Mark H)) : List (Handle × Fault × H.Code) := t.filterMap fun
  | .told id _ reason code => some (id, reason, code)
  | _ => none

@[simp] theorem births_append (t u : List (Mark H)) : births (t ++ u) = births t ++ births u := List.filterMap_append
@[simp] theorem ends_append (t u : List (Mark H)) : ends (t ++ u) = ends t ++ ends u := List.filterMap_append
@[simp] theorem due_append (t u : List (Mark H)) : due (t ++ u) = due t ++ due u := List.filterMap_append
@[simp] theorem notices_append (t u : List (Mark H)) : notices (t ++ u) = notices t ++ notices u :=
  List.filterMap_append

theorem mem_births : id ∈ births t ↔ .born id ∈ t := by
  unfold births
  rw [List.mem_filterMap]
  constructor
  · rintro ⟨m, hm, heq⟩
    cases m <;> cases heq
    exact hm
  · intro hm
    exact ⟨_, hm, rfl⟩

theorem mem_ends : id ∈ ends t ↔ ∃ reason code, .ended id reason code ∈ t := by
  unfold ends
  rw [List.mem_filterMap]
  constructor
  · rintro ⟨m, hm, heq⟩
    cases m <;> cases heq
    exact ⟨_, _, hm⟩
  · rintro ⟨reason, code, hm⟩
    exact ⟨_, hm, rfl⟩

theorem mem_due {x : Handle × Fault × H.Code} : x ∈ due t ↔ .ended x.1 x.2.1 (some x.2.2) ∈ t := by
  unfold due
  rw [List.mem_filterMap]
  constructor
  · rintro ⟨m, hm, heq⟩
    split at heq
    · cases heq
      exact hm
    · cases heq
  · intro hm
    exact ⟨_, hm, rfl⟩

end Mark

open Mark

/-- The end of which somebody is to be told when an event is delivered. -/
def Queued.owed (q : Queued H) : Option (Handle × Fault × H.Code) :=
  match q.event, q.route with
  | .error reason, .sink (some code) => some (q.source, reason, code)
  | _, _ => none

/-- The ends of which somebody is still to be told. -/
def Slots.outstanding (s : Slots H) : List (Handle × Fault × H.Code) := s.queue.filterMap Queued.owed

/-- What the record of a run says of a connection and the slots that it has left: whether it has come and is gone, and
whom its end was told, or is still to be told. -/
structure Chronicle (id : Handle) (h : List (Mark H)) (s : Slots H) : Prop where
  born : s.isAlive id = true → .born id ∈ h
  freed : .freed id ∈ h → .born id ∈ h ∧ s.isAlive id = false
  ended : ∀ reason code, .ended id reason code ∈ h → .freed id ∈ h
  once : (ends h).count id ≤ 1
  closed : .closed id ∈ h → .freed id ∈ h ∧ id ∉ ends h
  aborted : ∀ code, .aborted id code ∈ h → .ended id .aborted code ∈ h
  due : due h = notices h ++ s.outstanding
  told : ∀ alive reason code, .told id alive reason code ∈ h → alive = false
  called : ∀ alive call, .called id alive call ∈ h → alive = true
  last : h.Pairwise fun m n => m = .freed id → ∀ alive call, n ≠ .called id alive call

/-- What has happened between `s` and `s'` goes on, with the record `t`, with every record that is true of `s`. A
connection is known by its handle, which must not be given out twice. -/
def Keeps (s : Slots H) (t : List (Mark H)) (s' : Slots H) : Prop :=
  ∀ id h, (births (h ++ t)).count id ≤ 1 → Chronicle id h s → Chronicle id (h ++ t) s'

theorem Keeps.trans (hk : Keeps s t s') (hk' : Keeps s' u s'') : Keeps s (t ++ u) s'' := by
  intro id h hn hc
  rw [← List.append_assoc] at hn ⊢
  refine hk' id (h ++ t) hn (hk id h ?_ hc)
  rw [births_append, List.count_append] at hn
  exact Nat.le_trans (Nat.le_add_right _ _) hn

/-- A handle of which the record says that it has come to its end is dead. -/
theorem Chronicle.ends_dead (hc : Chronicle id h s) (hx : id ∈ ends h) : s.isAlive id = false := by
  obtain ⟨reason, code, hm⟩ := mem_ends.1 hx
  exact (hc.freed (hc.ended reason code hm)).2

/-- So is one of whose end somebody is still to be told. -/
theorem Chronicle.outstanding_dead (hc : Chronicle id h s) {reason : Fault} {code : H.Code}
    (hx : (id, reason, code) ∈ s.outstanding) : s.isAlive id = false := by
  have hdue : (id, reason, code) ∈ Mark.due h := by
    rw [hc.due]
    exact List.mem_append_right _ hx
  exact hc.ends_dead (mem_ends.2 ⟨_, _, mem_due.1 hdue⟩)

/-- **What goes on with every record.** The marks say which connections have come and gone, that one which comes to its
end or is closed was alive and is gone, and whom its end was told. -/
theorem Keeps.of_marks (hborn : ∀ x, s'.isAlive x = true → s.isAlive x = true ∨ .born x ∈ t)
    (hfreed : ∀ x, .freed x ∈ t → s.isAlive x = true ∧ s'.isAlive x = false)
    (hended : ∀ x reason code, .ended x reason code ∈ t → s.isAlive x = true ∧ .freed x ∈ t)
    (honce : (ends t).Nodup) (hclosed : ∀ x, .closed x ∈ t → s.isAlive x = true ∧ .freed x ∈ t ∧ x ∉ ends t)
    (haborted : ∀ x code, .aborted x code ∈ t → .ended x .aborted code ∈ t)
    (hdue : s.outstanding ++ Mark.due t = notices t ++ s'.outstanding)
    (htold : ∀ x alive reason code, .told x alive reason code ∈ t →
      alive = s.isAlive x ∧ (x, reason, code) ∈ s.outstanding)
    (hcalled : ∀ x alive call, .called x alive call ∈ t → alive = true ∧ s.isAlive x = true ∧ .freed x ∉ t) :
    Keeps s t s' := by
  intro id h hn hc
  -- what has come to its end before is dead, so none of what happens now happens to it
  have hends : id ∈ ends t → id ∉ ends h := by
    intro hx hx'
    obtain ⟨reason, code, hm⟩ := mem_ends.1 hx
    have hdead := hc.ends_dead hx'
    rw [(hended id reason code hm).1] at hdead
    cases hdead
  constructor
  · intro hx
    rcases hborn id hx with hx | hx
    · exact List.mem_append_left _ (hc.born hx)
    · exact List.mem_append_right _ hx
  · intro hx
    rcases List.mem_append.1 hx with hx | hx
    · obtain ⟨hb, hdead⟩ := hc.freed hx
      refine ⟨List.mem_append_left _ hb, ?_⟩
      -- one that has gone comes back only under another handle
      rw [Bool.eq_false_iff]
      intro hx'
      rcases hborn id hx' with hx' | hx'
      · rw [hdead] at hx'
        cases hx'
      · have hbefore := List.count_pos_iff.2 (mem_births.2 hb)
        have hnow := List.count_pos_iff.2 (mem_births.2 hx')
        rw [births_append, List.count_append] at hn
        omega
    · obtain ⟨hx, hdead⟩ := hfreed id hx
      exact ⟨List.mem_append_left _ (hc.born hx), hdead⟩
  · intro reason code hx
    rcases List.mem_append.1 hx with hx | hx
    · exact List.mem_append_left _ (hc.ended reason code hx)
    · exact List.mem_append_right _ (hended id reason code hx).2
  · rw [ends_append, List.count_append]
    by_cases hx : id ∈ ends t
    · rw [List.count_eq_zero_of_not_mem (hends hx), Nat.zero_add]
      exact List.nodup_iff_count_le_one.1 honce id
    · rw [List.count_eq_zero_of_not_mem hx]
      exact hc.once
  · intro hx
    have hsplit : id ∉ ends (h ++ t) ↔ id ∉ ends h ∧ id ∉ ends t := by
      rw [ends_append, List.mem_append, not_or]
    rcases List.mem_append.1 hx with hx | hx
    · obtain ⟨hf, he⟩ := hc.closed hx
      refine ⟨List.mem_append_left _ hf, hsplit.2 ⟨he, fun hx' => ?_⟩⟩
      obtain ⟨reason, code, hm⟩ := mem_ends.1 hx'
      have hdead := (hc.freed hf).2
      rw [(hended id reason code hm).1] at hdead
      cases hdead
    · obtain ⟨hlive, hf, he⟩ := hclosed id hx
      refine ⟨List.mem_append_right _ hf, hsplit.2 ⟨fun hx' => ?_, he⟩⟩
      have hdead := hc.ends_dead hx'
      rw [hlive] at hdead
      cases hdead
  · intro code hx
    rcases List.mem_append.1 hx with hx | hx
    · exact List.mem_append_left _ (hc.aborted code hx)
    · exact List.mem_append_right _ (haborted id code hx)
  · rw [due_append, notices_append, hc.due, List.append_assoc, List.append_assoc, hdue]
  · intro alive reason code hx
    rcases List.mem_append.1 hx with hx | hx
    · exact hc.told alive reason code hx
    · obtain ⟨rfl, hout⟩ := htold id alive reason code hx
      exact hc.outstanding_dead hout
  · intro alive call hx
    rcases List.mem_append.1 hx with hx | hx
    · exact hc.called alive call hx
    · exact (hcalled id alive call hx).1
  · -- who is called was alive and does not go, now or before
    refine List.pairwise_append.2 ⟨hc.last, ?_, ?_⟩
    · refine List.pairwise_iff_forall_sublist.2 fun {m n} hmn hm alive call hcall => ?_
      have hmem := hmn.subset
      rw [hm, hcall] at hmem
      exact (hcalled id alive call (hmem (by simp))).2.2 (hmem (by simp))
    · intro m hm n hn hf alive call hcall
      have hlive := (hcalled id alive call (hcall ▸ hn)).2.1
      rw [(hc.freed (hf ▸ hm)).2] at hlive
      cases hlive

theorem Keeps.of_same (ha : ∀ x, s'.isAlive x = s.isAlive x) (ho : s'.outstanding = s.outstanding) : Keeps s [] s' := by
  refine .of_marks (fun x hx => .inl ?_) ?_ ?_ ?_ ?_ ?_ ?_ ?_ ?_
  · rw [← ha]
    exact hx
  all_goals simp [ends, Mark.due, notices, ho]

theorem Keeps.refl (s : Slots H) : Keeps s [] s := .of_same (fun _ => rfl) rfl

/-- What goes on from slots that are the same for a record. -/
theorem Keeps.before (hk : Keeps s' t s'') (ha : ∀ x, s'.isAlive x = s.isAlive x)
    (ho : s'.outstanding = s.outstanding) : Keeps s t s'' := Keeps.trans (.of_same ha ho) hk

/-- A connection has come. -/
theorem Keeps.born (ha : ∀ x, s'.isAlive x = (s.isAlive x || decide (x = new))) (ho : s'.outstanding = s.outstanding) :
    Keeps s [.born new] s' := by
  refine .of_marks (fun x hx => ?_) ?_ ?_ ?_ ?_ ?_ ?_ ?_ ?_
  · rw [ha, Bool.or_eq_true, decide_eq_true_eq] at hx
    simpa using hx
  all_goals simp [ends, Mark.due, notices, ho]

/-- How a connection goes: it is let go, it is closed, or it comes to its end, of which somebody may have to be
told. -/
inductive Departs (id : Handle) : List (Mark H) → List (Handle × Fault × H.Code) → Prop
  | freed : Departs id [] []
  | closed : Departs id [.closed id] []
  | ended (reason : Fault) (code : Option H.Code) :
      Departs id [.ended id reason code] (code.map fun c => (id, reason, c)).toList

/-- A connection has gone. -/
theorem Keeps.freed {q : List (Handle × Fault × H.Code)} (hd : Departs id t q) (hid : s.isAlive id = true)
    (ha : ∀ x, s'.isAlive x = (s.isAlive x && decide (x ≠ id))) (ho : s'.outstanding = s.outstanding ++ q) :
    Keeps s (t ++ [.freed id]) s' := by
  have hdead : s'.isAlive id = false := by simp [ha]
  have hleft : ∀ x, s'.isAlive x = true → s.isAlive x = true := by
    intro x hx
    rw [ha, Bool.and_eq_true] at hx
    exact hx.1
  cases hd with
  -- nobody is to be told
  | freed | closed =>
    refine .of_marks (fun x hx => .inl (hleft x hx)) ?_ ?_ ?_ ?_ ?_ ?_ ?_ ?_ <;>
      simp [ends, Mark.due, notices, ho, hid, hdead]
  | ended reason code =>
    refine .of_marks (fun x hx => .inl (hleft x hx)) ?_ ?_ ?_ ?_ ?_ ?_ ?_ ?_
    all_goals cases code <;> simp +contextual [ends, Mark.due, notices, ho, hid, hdead]

/-- A callback is called. -/
theorem Keeps.called (call : Call) (hid : s.isAlive id = true) : Keeps s [.called id (s.isAlive id) call] s := by
  refine .of_marks (fun x hx => .inl hx) ?_ ?_ ?_ ?_ ?_ ?_ ?_ ?_ <;> simp [ends, Mark.due, notices, hid]

/-- Somebody is told of the end of a connection. -/
theorem Keeps.told {reason : Fault} {code : H.Code} (ha : ∀ x, s'.isAlive x = s.isAlive x)
    (ho : s.outstanding = (id, reason, code) :: s'.outstanding) :
    Keeps s [.told id (s'.isAlive id) reason code] s' := by
  refine .of_marks (fun x hx => .inl ?_) ?_ ?_ ?_ ?_ ?_ ?_ ?_ ?_
  · rw [← ha]
    exact hx
  all_goals simp +contextual [ends, Mark.due, notices, ho, ha]

/-- A connection that was to be aborted has come to its end. -/
theorem Keeps.aborted {code : Option H.Code} (hk : Keeps s t s') (hm : .ended id .aborted code ∈ t) :
    Keeps s (.aborted id code :: t) s' := by
  intro x h hn hc
  have hb : births (h ++ .aborted id code :: t) = births (h ++ t) := by simp [births]
  have hc' := hk x h (hb ▸ hn) hc
  have he : ends (h ++ .aborted id code :: t) = ends (h ++ t) := by simp [ends]
  have hmem : ∀ m : Mark H, m ∈ h ++ t → m ∈ h ++ .aborted id code :: t := by
    intro m hm
    simp only [List.mem_append, List.mem_cons] at hm ⊢
    tauto
  have hmem' : ∀ m : Mark H, m ∈ h ++ .aborted id code :: t → m = .aborted id code ∨ m ∈ h ++ t := by
    intro m hm
    simp only [List.mem_append, List.mem_cons] at hm ⊢
    tauto
  constructor
  · exact fun hx => hmem _ (hc'.born hx)
  · intro hx
    obtain ⟨hb, hd⟩ := hc'.freed ((hmem' _ hx).resolve_left (by simp))
    exact ⟨hmem _ hb, hd⟩
  · exact fun r c hx => hmem _ (hc'.ended r c ((hmem' _ hx).resolve_left (by simp)))
  · rw [he]
    exact hc'.once
  · intro hx
    obtain ⟨hf, hx'⟩ := hc'.closed ((hmem' _ hx).resolve_left (by simp))
    refine ⟨hmem _ hf, ?_⟩
    rw [he]
    exact hx'
  · intro c hx
    rcases hmem' _ hx with hx | hx
    · cases hx
      exact hmem _ (List.mem_append_right _ hm)
    · exact hmem _ (hc'.aborted c hx)
  · have hdue := hc'.due
    simpa [Mark.due, notices] using hdue
  · exact fun a r c hx => hc'.told a r c ((hmem' _ hx).resolve_left (by simp))
  · exact fun a c hx => hc'.called a c ((hmem' _ hx).resolve_left (by simp))
  · obtain ⟨hh, ht, hcross⟩ := List.pairwise_append.1 hc'.last
    have hmark : (.aborted id code :: t).Pairwise fun m n => m = .freed x → ∀ alive call, n ≠ .called x alive call :=
      List.pairwise_cons.2 ⟨fun n _ hf => absurd hf (by simp), ht⟩
    refine List.pairwise_append.2 ⟨hh, hmark, fun m hm n hn => ?_⟩
    rcases List.mem_cons.1 hn with rfl | hn
    · simp
    · exact hcross m hm n hn

end Conduit
