import Conduit.Loopback.Net

/-!
# Endpoints of a net

What a change of one endpoint does to a net.
-/

namespace Conduit.Loopback.Net

variable {n : Net} {i j : Nat} {f g f' : Pcb → Pcb}

@[simp] theorem size_update : (n.update i f).pcbs.size = n.pcbs.size := Array.size_modify

@[simp] theorem options_update : (n.update i f).options = n.options := rfl

@[simp] theorem actions_update : (n.update i f).actions = n.actions := rfl

@[simp] theorem pcb_pend (a : Action) : (n.pend a).pcb j = n.pcb j := rfl

@[simp] theorem size_pend (a : Action) : (n.pend a).pcbs.size = n.pcbs.size := rfl

@[simp] theorem options_pend (a : Action) : (n.pend a).options = n.options := rfl

@[simp] theorem actions_pend (a : Action) : (n.pend a).actions = n.actions ++ [a] := rfl

theorem pcb_update_self (hi : i < n.pcbs.size) : (n.update i f).pcb i = f (n.pcb i) := by
  unfold pcb update
  simp only [Array.getD_eq_getD_getElem?, Array.getElem?_modify, if_true, Array.getElem?_eq_getElem hi,
    Option.map_some, Option.getD_some]

theorem pcb_update_of_ne (h : j ≠ i) : (n.update i f).pcb j = n.pcb j := by
  unfold pcb update
  simp only [Array.getD_eq_getD_getElem?, Array.getElem?_modify]
  rw [if_neg (Ne.symm h)]

theorem pcb_of_size_le (hi : n.pcbs.size ≤ i) : n.pcb i = {} := by
  unfold pcb
  rw [Array.getD_eq_getD_getElem?, Array.getElem?_eq_none hi, Option.getD_none]

/-- A new endpoint comes after all others. -/
theorem pcb_add (p : Pcb) : (n.add p).2.pcb j = if j = n.pcbs.size then p else n.pcb j := by
  unfold add pcb
  simp only [Array.getD_eq_getD_getElem?, Array.getElem?_push]
  split <;> rfl

/-- A beat changes nothing of an endpoint but its poll timer. -/
theorem Pcb.beat_fst (p : Pcb) : ∃ k, (Pcb.beat p).1 = { p with pollElapsed := k } := by
  unfold Pcb.beat
  split
  · exact ⟨_, rfl⟩
  · split <;> exact ⟨_, rfl⟩

theorem pcb_tick : n.tick.1.pcb j = (Pcb.beat (n.pcb j)).1 := by
  unfold tick pcb
  simp only [Array.getD_eq_getD_getElem?, Array.getElem?_map]
  cases n.pcbs[j]? <;> rfl

theorem ext_pcb {n' : Net} (ho : n'.options = n.options) (hs : n'.pcbs.size = n.pcbs.size)
    (hp : ∀ j, n'.pcb j = n.pcb j) (hl : n'.listeners = n.listeners) (hn : n'.nextPort = n.nextPort)
    (ha : n'.actions = n.actions) (hc : n'.cursor = n.cursor) : n' = n := by
  have hpcbs : n'.pcbs = n.pcbs := by
    refine Array.ext hs fun j h h' => ?_
    have := hp j
    unfold pcb at this
    rwa [Array.getD_eq_getD_getElem?, Array.getD_eq_getD_getElem?, Array.getElem?_eq_getElem h,
      Array.getElem?_eq_getElem h', Option.getD_some, Option.getD_some] at this
  cases n
  cases n'
  simp_all

/-- A change of an endpoint depends on that endpoint only. -/
theorem update_congr (h : f (n.pcb i) = g (n.pcb i)) : n.update i f = n.update i g := by
  refine ext_pcb rfl (by simp) (fun j => ?_) rfl rfl rfl rfl
  by_cases hj : j = i
  · subst hj
    rcases Nat.lt_or_ge j n.pcbs.size with hi | hi
    · rw [pcb_update_self hi, pcb_update_self hi, h]
    · rw [pcb_of_size_le (by simpa using hi), pcb_of_size_le (by simpa using hi)]
  · rw [pcb_update_of_ne hj, pcb_update_of_ne hj]

theorem update_update (h : ∀ p, g (f p) = f' p) : (n.update i f).update i g = n.update i f' := by
  refine ext_pcb rfl (by simp) (fun j => ?_) rfl rfl rfl rfl
  by_cases hj : j = i
  · subst hj
    rcases Nat.lt_or_ge j n.pcbs.size with hi | hi
    · rw [pcb_update_self (by simpa using hi), pcb_update_self hi, pcb_update_self hi, h]
    · rw [pcb_of_size_le (by simpa using hi), pcb_of_size_le (by simpa using hi)]
  · rw [pcb_update_of_ne hj, pcb_update_of_ne hj, pcb_update_of_ne hj]

theorem update_self (n : Net) (i : Nat) : (n.update i fun _ => n.pcb i) = n := by
  refine ext_pcb rfl (by simp) (fun j => ?_) rfl rfl rfl rfl
  by_cases hj : j = i
  · subst hj
    rcases Nat.lt_or_ge j n.pcbs.size with hi | hi
    · rw [pcb_update_self hi]
    · rw [pcb_of_size_le (by simpa using hi), pcb_of_size_le hi]
  · rw [pcb_update_of_ne hj]

end Conduit.Loopback.Net
