import Conduit.Proofs.Stack.Upheld

/-!
# Every moment of a run

Any application can look, before each thing it asks for, which connections are there, and remember it: outside its
callbacks, inside them, and in layers of its own. What it has seen in the end are the states of the run in their order.

* `Behaviour.watcher`, `Stack.watched`: an application that remembers which connections it has seen at each moment.
* `Dated`: at each moment those are there who have come and have not gone, as the record tells by then.
* `Dated.buried`: **who has gone does not come back.**
* `Recorded.run_dated`: so it is at all moments of a run, as long as no slot has started over.
-/

namespace Conduit

/-! ## Applications that look around -/

/-- Which connections are there at a moment. -/
abbrev Moment := Handle → Bool

/-- The types of an application that remembers the moments of its run. -/
abbrev Host.watcher (H : Host) : Host := { H with Memory := H.Memory × List Moment }

namespace Stack

variable {H : Host} {α : Type}

/-- A request; what the application remembers does not touch the moments. -/
def sparing : (r : Req H.watcher) → Act H.watcher r.Ans
  | .remember m => .ask .recall fun old => .ask (.remember (m.1, old.2)) .done
  | r => .ask r .done

/-- Remembers the moment. -/
def look : Act H.watcher Unit :=
  .ask .slots fun s => .ask .recall fun m => .ask (.remember (m.1, m.2 ++ [s.isAlive])) .done

/-- A request; the moment before it is remembered. -/
def looked (r : Req H.watcher) : Act H.watcher r.Ans := do
  look
  sparing r

/-- What an application does, with the moments before each thing it asks for. -/
def watched (p : Act H.watcher α) : Act H.watcher α := p.run looked

/-- A request of a layer of the application's own. -/
def lookedCustom : (r : (Layer.customIo H.watcher).Req) → Layer.CustomAct H.watcher ((Layer.customIo H.watcher).Ans r)
  | .inl r => Program.request (I := Layer.customIo H.watcher) (.inl r)
  | .inr r => (looked r).run fun r => Program.request (I := Layer.customIo H.watcher) (.inr r)

end Stack

/-- An application that remembers the moments of its run. -/
def Behaviour.watcher {H : Host} (b : Behaviour H.watcher) : Behaviour H.watcher :=
  { b with
    callback := fun code call => Stack.watched (b.callback code call)
    layer := fun l me m => (b.layer l me m).run Stack.lookedCustom
    pcb := fun p o m => ((b.pcb p o m).1, ((b.pcb p o m).2.1, m.2))
    note := fun n m => ((b.note n m).1, m.2) }

open Mark Slots

variable {H : Host} {h t u : List (Mark H)} {s : Slots H} {ms early late : List Moment} {m : Moment} {id : Handle}

/-- At a moment, those are there who have come and have not gone, as the record tells by then. -/
def Agrees (u : List (Mark H)) (m : Moment) : Prop := ∀ id, m id = true ↔ .born id ∈ u ∧ .freed id ∉ u

/-- Each of the moments agrees with the record as far as it went by then, and it went further from one to the next. -/
structure Dated (t : List (Mark H)) (ms : List Moment) (dates : List (List (Mark H))) : Prop where
  agrees : List.Forall₂ Agrees dates ms
  ordered : dates.Pairwise (· <+: ·)
  within : ∀ u ∈ dates, u <+: t

theorem Dated.nil : Dated h [] [] := ⟨.nil, .nil, fun _ hu => absurd hu List.not_mem_nil⟩

theorem Dated.append {dates : List (List (Mark H))} (hd : Dated h ms dates) (t : List (Mark H)) :
    Dated (h ++ t) ms dates :=
  ⟨hd.agrees, hd.ordered, fun u hu => (hd.within u hu).trans (List.prefix_append h t)⟩

/-- Another moment is remembered. -/
theorem Dated.look {dates : List (List (Mark H))} (hd : Dated h ms dates) (hl : Ledger h s) :
    Dated h (ms ++ [s.isAlive]) (dates ++ [h]) := by
  refine ⟨List.rel_append hd.agrees (.cons (fun id => hl.alive_iff) .nil), ?_, fun u hu => ?_⟩
  · refine List.pairwise_append.2 ⟨hd.ordered, List.pairwise_singleton _ _, fun u hu v hv => ?_⟩
    rw [List.mem_singleton.1 hv]
    exact hd.within u hu
  · rw [List.mem_append, List.mem_singleton] at hu
    rcases hu with hu | rfl
    · exact hd.within u hu
    · exact List.prefix_rfl

theorem exists_date {dates : List (List (Mark H))} (ha : List.Forall₂ Agrees dates ms) (hm : m ∈ ms) :
    ∃ u ∈ dates, Agrees u m := by
  induction ha with
  | nil => cases hm
  | cons hagree _ ih =>
    rcases List.mem_cons.1 hm with rfl | hm
    · exact ⟨_, List.mem_cons_self, hagree⟩
    · obtain ⟨u, hu, hagree⟩ := ih hm
      exact ⟨u, List.mem_cons_of_mem _ hu, hagree⟩

/-- **Who has gone does not come back**: a connection that was there at some moment, and is not at a later one, is never
there again. -/
theorem Dated.buried {dates : List (List (Mark H))} (hd : Dated t (early ++ m :: late) dates)
    (hearly : ∃ e ∈ early, e id = true) (hm : m id = false) : ∀ l ∈ late, l id = false := by
  have hbefore := List.forall₂_take_append _ _ _ hd.agrees
  obtain ⟨u, after, hu, hafter, hdrop⟩ := List.forall₂_cons_right_iff.1 (List.forall₂_drop_append _ _ _ hd.agrees)
  have hordered := hd.ordered
  rw [← List.take_append_drop early.length dates, hdrop, List.pairwise_append, List.pairwise_cons] at hordered
  obtain ⟨-, ⟨hlater, -⟩, hsooner⟩ := hordered
  -- it had come by the earlier moment, so by this one it has gone
  obtain ⟨e, he, hlive⟩ := hearly
  obtain ⟨v, hv, hagree⟩ := exists_date hbefore he
  have hborn : .born id ∈ u := (hsooner v hv u List.mem_cons_self).subset ((hagree id).1 hlive).1
  have hgone : .freed id ∈ u := by
    by_contra hstay
    rw [(hu id).2 ⟨hborn, hstay⟩] at hm
    cases hm
  intro l hl
  obtain ⟨x, hx, hagree⟩ := exists_date hafter hl
  rw [Bool.eq_false_iff]
  exact fun hlive => ((hagree id).1 hlive).2 ((hlater x hx).subset hgone)

/-- No slot has been vacated so often that its counter has started over. -/
def Mark.Bounded (h : List (Mark H)) : Prop := ∀ i, vacated h i < 2 ^ 32

theorem Mark.Bounded.left (hb : Bounded (h ++ t)) : Bounded h := fun i => by
  have hi := hb i
  rw [vacated_append] at hi
  omega

namespace Recorded

open Exec Stack

variable {b : Behaviour H} {α : Type}

/-- As long as no slot has started over, the record and the slots agree. -/
def Kept (h : List (Mark H)) (w : World H) : Prop := Bounded h → Ledger h w.stack

theorem steady_kept (b : Behaviour H) : Steady b Kept := by
  refine ⟨fun h w w' hj hs _ hb => (hj hb).of_settled hs, fun h t w ht hd hj hb => ?_, ?_, ?_, ?_, ?_⟩
  · exact (hj hb.left).of_marks ht hd
  · exact fun h w name layer hj hb => (hj hb.left).insert name layer
  · exact fun h w id hj hid hb => (hj hb.left).vacate hid (hb _)
  · exact fun h w n hj hb => hj hb
  · exact fun h w p o hj hb => hj hb

/-- The record agrees with the slots, and with the moments that were remembered. -/
def Followed (h : List (Mark H.watcher)) (w : World H.watcher) : Prop :=
  Bounded h → Ledger h w.stack ∧ ∃ dates, Dated h w.memory.2 dates

theorem steady_followed (b : Behaviour H.watcher) : Steady b.watcher Followed := by
  have hmore : ∀ {h t : List (Mark H.watcher)} {ms : List Moment}, (∃ dates, Dated h ms dates) →
      ∃ dates, Dated (h ++ t) ms dates := fun ⟨dates, hd⟩ => ⟨dates, hd.append _⟩
  refine ⟨fun h w w' hj hs hm hb => ?_, fun h t w ht hd hj hb => ?_, ?_, ?_, ?_, ?_⟩
  · rw [hm]
    exact ⟨(hj hb).1.of_settled hs, (hj hb).2⟩
  · exact ⟨(hj hb.left).1.of_marks ht hd, hmore (hj hb.left).2⟩
  · exact fun h w name layer hj hb => ⟨(hj hb.left).1.insert name layer, hmore (hj hb.left).2⟩
  · exact fun h w id hj hid hb => ⟨(hj hb.left).1.vacate hid (hb _), hmore (hj hb.left).2⟩
  · exact fun h w n hj hb => hj hb
  · exact fun h w p o hj hb => hj hb

theorem exec_slots (k : Nat) (w : World H) {post : Slots H → List (Mark H) → World H → Prop} (hp : post w.stack [] w) :
    Ends (exec b k .slots) w post := by
  cases k with
  | zero => exact (ends_lift _).2 (ends_throw _)
  | succ k => exact (ends_lift _).2 (ends_getSlots.2 hp)

theorem exec_recall (k : Nat) (w : World H) {post : H.Memory → List (Mark H) → World H → Prop}
    (hp : post w.memory [] w) : Ends (exec b k .recall) w post := by
  cases k with
  | zero => exact (ends_lift _).2 (ends_throw _)
  | succ k => exact (ends_lift _).2 ((Exec.ends_pure _).2 hp)

theorem exec_remember (k : Nat) (m : H.Memory) (w : World H) {post : Unit → List (Mark H) → World H → Prop}
    (hp : post () [] { w with memory := m }) : Ends (exec b k (.remember m)) w post := by
  cases k with
  | zero => exact (ends_lift _).2 (ends_throw _)
  | succ k => exact (ends_lift _).2 ((ends_modify _).2 hp)

/-- Looking around is remembered, and nothing else happens. -/
theorem look_upholds {b : Behaviour H.watcher} (k : Nat) : Upholds Followed (look.run (exec b k)) := by
  intro h w hj
  refine (ends_bind _ _).2 (exec_slots k w ?_)
  refine (ends_bind _ _).2 (exec_recall k w ?_)
  refine (ends_bind _ _).2 (exec_remember k _ w ?_)
  refine (ends_pure _).2 fun hb => ?_
  simp only [List.append_nil] at hb ⊢
  obtain ⟨hledger, dates, hdated⟩ := hj hb
  exact ⟨hledger, _, hdated.look hledger⟩

section

variable {b : Behaviour H.watcher} {k : Nat} (hk : ∀ r, Heedless r → Upholds Followed (exec b k r))
include hk

theorem sparing_upholds (r : Req H.watcher) : Upholds Followed ((sparing r).run (exec b k)) := by
  unfold sparing
  split
  · intro h w hj
    refine (ends_bind _ _).2 (exec_recall k w ?_)
    refine (ends_bind _ _).2 (exec_remember k _ w ?_)
    refine (ends_pure _).2 fun hb => ?_
    simp only [List.append_nil] at hb ⊢
    exact hj hb
  · rename_i hr
    exact (hk r fun m hm => hr m hm).bind fun _ => upholds_pure _

theorem looked_upholds (r : Req H.watcher) : Upholds Followed ((looked r).run (exec b k)) := by
  unfold looked
  rw [Program.run_bind]
  exact (look_upholds k).bind fun _ => sparing_upholds hk r

theorem watched_upholds (p : Act H.watcher α) : Upholds Followed ((watched p).run (exec b k)) := by
  unfold watched
  rw [Program.run_run]
  exact upholds_program (looked_upholds hk) p

end

/-- What a layer of the application's own asks of the stack, it asks as the application does. -/
theorem run_embedded (A : Answers H) (me : Handle) (p : Act H α) (flag : Bool) :
    (((p.run fun r => Program.request (I := Layer.customIo H) (.inr r)).run (answerCustom b A me)).run flag) =
      p.run A >>= fun a => pure (a, flag) := by
  induction p with
  | done a => exact (pure_bind a fun a => (pure (a, flag) : Recorded H _)).symm
  | ask r next ih =>
    rw [Program.run_ask, Program.request_bind, Program.run_ask, StateT.run_bind, Program.run_ask, bind_assoc]
    show (A r >>= fun x => pure (x, flag)) >>= _ = _
    rw [bind_assoc]
    refine congrArg (A r >>= ·) (funext fun x => ?_)
    rw [pure_bind]
    exact ih x

/-- An application that looks around is an ally. -/
theorem allied_watcher (b : Behaviour H.watcher) : Allied b.watcher Followed := by
  refine ⟨fun k hk code call => watched_upholds hk _, fun k hk me hl l m => ?_⟩
  show ∀ flag, Upholds Followed ((((b.layer l me m).run lookedCustom).run (answerCustom b.watcher _ me)).run flag)
  rw [Program.run_run]
  refine upholds_run_program (fun r flag => ?_) _
  cases r with
  | inl r => exact upholds_run_bind (hl r) fun _ _ => upholds_pure _
  | inr r =>
    unfold lookedCustom
    rw [run_embedded]
    exact (looked_upholds hk r).bind fun _ => upholds_pure _

/-- **As long as no slot has started over, no handle is given out twice**, and a handle that was given out names a
connection until that goes. -/
theorem run_ledger {a : α} {w w' : World H} (fuel : Nat) (p : Act H α) (hw : w.stack = {})
    (hrun : run b fuel p w = .ok (a, t) w') (hb : Bounded t) : Ledger t w'.stack := by
  have hbegin : Kept [] w := fun _ => by
    rw [hw]
    exact .empty
  exact run_upholds (fun h w m hj => hj) (steady_kept b) fuel p [] w hbegin (a, t) w' hrun hb

/-- The same is true at every moment of the run that the application can see. -/
theorem run_dated {b : Behaviour H.watcher} {a : α} {w w' : World H.watcher} {t : List (Mark H.watcher)} (fuel : Nat)
    (p : Act H.watcher α) (hw : w.stack = {}) (hm : w.memory.2 = [])
    (hrun : run b.watcher fuel (watched p) w = .ok (a, t) w') (hb : Bounded t) : ∃ dates, Dated t w'.memory.2 dates := by
  have hall := exec_upholds (steady_followed b) (allied_watcher b) fuel
  have hbegin : Followed [] w := fun _ => by
    rw [hw, hm]
    exact ⟨.empty, [], .nil⟩
  exact (watched_upholds hall p [] w hbegin (a, t) w' hrun hb).2

end Recorded

end Conduit
