import Conduit.Proofs.Loopback.Farewells

/-!
# The course of a net

All that ever happens to a net: endpoints are added and operated, steps are taken, timers beat, and tests lay down plans.

* `Happening`: one such thing; `Net.undergo` is the net after it.
* `Net.heed`: what is done at once with what a step brings, before anybody is told of it.
* `Net.course_keeps`: **what each happening preserves, every course does.**
* `Net.Stepped`: all that a step may do: it settles the oldest action, sends a segment, or says a goodbye.
-/

namespace Conduit.Loopback

/-- What may happen to a net. -/
inductive Happening
  /-- A new endpoint. -/
  | add
  | perform (i : Nat) (o : PcbOp)
  | step
  | tick
  | split (id : Handle) (sizes : List Nat)
  | failCloses (id : Handle) (count : Nat)
  deriving DecidableEq

namespace Net

/-- What is done at once with what a step brings to an endpoint. A connection that nobody waits for is aborted, one that
is reset belongs to nobody any more, and data that arrives for nobody is acknowledged. -/
def heed (n : Net) (i : Nat) : Delivery → Net
  | .accept new => if (n.pcb i).owner.isNone then n.abort new else n
  | .reset => n.update i fun p => { p with owner := none }
  | .event (.recv data) => if (n.pcb i).owner.isNone then n.acknowledge i data.length else n
  | .event _ | .nothing => n

/-- The net after something has happened to it, unless that cannot go on. -/
def undergo (n : Net) : Happening → Except Halt Net
  | .add => .ok (n.add {}).2
  | .perform i o => (n.perform i o).map (·.net)
  | .step =>
    match n.next with
    | none => .ok n
    | some r => .ok (r.net.heed r.value.1 r.value.2)
  | .tick => .ok n.tick.1
  | .split id sizes => .ok (n.split id sizes).1
  | .failCloses id count => .ok (n.failCloses id count).1

/-- The net after all of this has happened to it. -/
def course (n : Net) (hs : List Happening) : Except Halt Net := hs.foldlM undergo n

variable {n n' : Net}

theorem undergo_perform {i : Nat} {o : PcbOp} :
    n.undergo (.perform i o) = .ok n' ↔ ∃ res, n.perform i o = .ok res ∧ res.net = n' := by
  show (n.perform i o).map (·.net) = .ok n' ↔ _
  cases n.perform i o with
  | error e => exact ⟨nofun, nofun⟩
  | ok res => exact ⟨fun h => ⟨res, rfl, Except.ok.inj h⟩, fun ⟨_, hr, h⟩ => by cases hr; exact congrArg Except.ok h⟩

theorem course_cons {h : Happening} {hs : List Happening} :
    n.course (h :: hs) = .ok n' ↔ ∃ m, n.undergo h = .ok m ∧ m.course hs = .ok n' := by
  unfold course
  rw [List.foldlM_cons]
  cases n.undergo h with
  | error e => exact ⟨nofun, nofun⟩
  | ok m => exact ⟨fun hc => ⟨m, rfl, hc⟩, fun ⟨_, hm, hc⟩ => Except.ok.inj hm ▸ hc⟩

theorem course_append {m : Net} {hs hs' : List Happening} (h : n.course hs = .ok m) (h' : m.course hs' = .ok n') :
    n.course (hs ++ hs') = .ok n' := by
  unfold course at h h' ⊢
  rw [List.foldlM_append, h]
  exact h'

/-- What the happenings of one kind preserve, every course of them does. -/
theorem course_keeps_of {P : Net → Prop} {Q : Happening → Prop}
    (hP : ∀ n x n', P n → Q x → n.undergo x = .ok n' → P n') {hs : List Happening} (h : P n) (hq : ∀ x ∈ hs, Q x)
    (hc : n.course hs = .ok n') : P n' := by
  induction hs generalizing n with
  | nil =>
    cases hc
    exact h
  | cons x hs ih =>
    obtain ⟨m, hx, hm⟩ := course_cons.1 hc
    exact ih (hP n x m h (hq x List.mem_cons_self) hx) (fun y hy => hq y (List.mem_cons_of_mem x hy)) hm

/-- **What each happening preserves, every course does.** -/
theorem course_keeps {P : Net → Prop} (hP : ∀ n h n', P n → n.undergo h = .ok n' → P n') {hs : List Happening}
    (h : P n) (hc : n.course hs = .ok n') : P n' :=
  course_keeps_of (Q := fun _ => True) (fun n x n' hn _ hx => hP n x n' hn hx) h (fun _ _ => trivial) hc

/-- What holds of an endpoint, and of the changed one where it is that, holds after a change. -/
theorem pcb_update_elim {P : Pcb → Prop} {m k : Nat} {f : Pcb → Pcb} (h : P (n.pcb k))
    (hf : k = m → P (f (n.pcb k))) : P ((n.update m f).pcb k) := by
  by_cases hk : k = m
  · subst hk
    rcases Nat.lt_or_ge k n.pcbs.size with hlt | hge
    · rw [pcb_update_self hlt]
      exact hf rfl
    · rw [pcb_of_size_le (by simpa using hge), ← pcb_of_size_le hge]
      exact h
  · rw [pcb_update_of_ne hk]
    exact h

/-! ## Steps -/

/-- All that a step may do. -/
inductive Stepped (n : Net) : Result (Nat × Delivery) → Prop
  | settles {a : Action} {rest : List Action} (h : n.actions = a :: rest) :
      Stepped n ⟨({ n with actions := rest }.settle a).1, [], ({ n with actions := rest }.settle a).2⟩
  | segment {i j : Nat} {r : Result (Nat × Delivery)} (hn : n.actions = []) (hp : (n.pcb i).peer = some j)
      (h : n.sendSegment i j = some r) (cursor : Nat) : Stepped n { r with net := { r.net with cursor } }
  | goodbye {i j : Nat} (hn : n.actions = []) (hp : (n.pcb i).peer = some j) (cursor : Nat) :
      Stepped n { n.sendFin i j with net := { (n.sendFin i j).net with cursor } }

theorem next_stepped {r : Result (Nat × Delivery)} (h : n.next = some r) : n.Stepped r := by
  unfold next at h
  split at h
  · rename_i a rest hx
    cases h
    exact .settles hx
  · rename_i hx
    obtain ⟨i, r', cursor, ht, rfl⟩ := transmitFrom_some h
    unfold transmit at ht
    split at ht
    · cases ht
    · rename_i j hp
      split at ht
      · cases ht
      · split at ht
        · exact .segment hx hp ht cursor
        · split at ht
          · cases ht
            exact .goodbye hx hp cursor
          · cases ht

end Net

end Conduit.Loopback
