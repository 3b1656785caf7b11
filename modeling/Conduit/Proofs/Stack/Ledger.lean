import Conduit.Proofs.Stack.Chronicle

/-!
# The tenants of a slot

A slot counts its tenants, and a handle says which of them it means. As long as the counter has not started over, the
record of the connections that have come and gone tells which handles name a connection.

* `Slots.tenants`: what the slots say of their tenants, whoever they are.
* `Mark.vacated`: how often a slot was vacated.
* `Ledger`: the record and the slots agree on who has come and gone.
* `Ledger.insert`, `Ledger.vacate`: they go on agreeing when a connection comes, and when one goes.
-/

namespace Conduit

variable {H : Host} {s s' : Slots H} {h t : List (Mark H)} {id : Handle} {e : Entry H} {f : Entry H → Entry H}
  {name : String} {layer : Layer H}

/-! ## What slots say of their tenants -/

namespace Slots

/-- For each slot, the generation of its tenant, and whether it has one. -/
def tenants (s : Slots H) : List (Nat × Bool) := s.slots.toList.map fun slot => (slot.generation, slot.entry.isSome)

/-- Where an event goes is settled when it is delivered, unless it is an error. -/
def Routed (s : Slots H) : Prop := ∀ q ∈ s.queue, q.event.isError = false → q.route = .resolve

/-- The same tenants in the same slots, whatever has become of them, and no event that goes astray. -/
structure Settled (s s' : Slots H) : Prop where
  tenants : s'.tenants = s.tenants
  free : s'.free = s.free
  live : s'.live = s.live
  routed : s.Routed → s'.Routed

theorem Settled.refl (s : Slots H) : Settled s s := ⟨rfl, rfl, rfl, id⟩

theorem Settled.trans {s'' : Slots H} (h : Settled s s') (h' : Settled s' s'') : Settled s s'' :=
  ⟨h'.tenants.trans h.tenants, h'.free.trans h.free, h'.live.trans h.live, fun hr => h'.routed (h.routed hr)⟩

/-- An event more. -/
theorem Routed.append (h : s.Routed) {q : Queued H} (hq : q.event.isError = false → q.route = .resolve)
    (hs : s'.queue = s.queue ++ [q]) : s'.Routed := by
  intro q' hq' he
  rw [hs, List.mem_append, List.mem_singleton] at hq'
  rcases hq' with hq' | rfl
  · exact h q' hq' he
  · exact hq he

/-- An event less. -/
theorem Routed.tail (h : s.Routed) {q : Queued H} {rest : List (Queued H)} (hs : s.queue = q :: rest) :
    ({ s with queue := rest } : Slots H).Routed := fun q' hq' =>
  h q' (hs ▸ List.mem_cons_of_mem _ hq')

theorem tenants_getElem? (s : Slots H) (i : Nat) :
    s.tenants[i]? = (s.slots[i]?).map fun slot => (slot.generation, slot.entry.isSome) := by
  unfold tenants
  rw [List.getElem?_map, Array.getElem?_toList]

theorem length_tenants (s : Slots H) : s.tenants.length = s.slots.size := by simp [tenants]

theorem occupied_eq (s : Slots H) : s.occupied = s.tenants.map Prod.snd := by simp [occupied, tenants]

/-- A handle names the tenant of its generation. -/
theorem isAlive_iff_tenants : s.isAlive id = true ↔ s.tenants[id.index]? = some (id.generation, true) := by
  rw [tenants_getElem?]
  unfold isAlive find?
  cases s.slots[id.index]? with
  | none => simp
  | some slot =>
    by_cases hg : slot.generation = id.generation
    · simp [hg]
    · simp [hg]

theorem tenants_update : (s.update id f).tenants = s.tenants := by
  refine List.ext_getElem? fun i => ?_
  rw [tenants_getElem?, tenants_getElem?]
  unfold update
  rw [Array.getElem?_modify]
  split
  · rw [Option.map_map]
    congr 1
    funext slot
    simp only [Function.comp]
    split <;> simp
  · rfl

theorem settled_update : Settled s (s.update id f) := ⟨tenants_update, rfl, rfl, fun h => h⟩

theorem settled_enqueue (ev : Event) : Settled s (s.enqueue id ev) := by
  unfold enqueue
  split
  · split
    · exact .refl s
    · split
      · exact ⟨rfl, rfl, rfl, fun h => h.append (fun he => by cases he) rfl⟩
      · exact ⟨tenants_update, rfl, rfl, fun h => Routed.append (s := s) h (fun he => by cases he) rfl⟩
  · exact ⟨rfl, rfl, rfl, fun h => h.append (fun _ => rfl) rfl⟩

theorem settled_link (x y : Handle) : Settled s (s.link x y) := settled_update.trans settled_update

theorem Settled.counted (hs : Settled s s') (h : s.Counted) : s'.Counted := by
  have hocc : s'.occupied = s.occupied := by rw [occupied_eq, occupied_eq, hs.tenants]
  refine ⟨?_, ?_, fun i => ?_⟩
  · rw [hs.live, hocc]
    exact h.live
  · rw [hs.free]
    exact h.nodup
  · rw [hs.free, hocc]
    exact h.mem_free i

/-- The next connection comes to a vacant slot, of the generation that this one has come to, or to a new one. -/
theorem nextHandle_cases (h : s.Counted) :
    s.tenants[s.nextHandle.index]? = some (s.nextHandle.generation, false) ∨ s.nextHandle = ⟨s.tenants.length, 0⟩ := by
  unfold nextHandle
  cases hf : s.free with
  | nil => exact .inr (by rw [length_tenants])
  | cons i rest =>
    refine .inl ?_
    have hi : s.occupied[i]? = some false := (h.mem_free i).1 (by simp [hf])
    rw [occupied_getElem?] at hi
    rw [tenants_getElem?]
    cases hs : s.slots[i]? with
    | none =>
      rw [hs] at hi
      cases hi
    | some slot =>
      rw [hs] at hi
      simpa [hs] using hi

theorem tenants_insert (h : s.Counted) (i : Nat) :
    (s.insert name layer).tenants[i]? =
      if i = s.nextHandle.index then some (s.nextHandle.generation, true) else s.tenants[i]? := by
  have hnext := nextHandle_cases h
  rw [tenants_getElem?, tenants_getElem?]
  rw [tenants_getElem?] at hnext
  unfold insert nextHandle at *
  cases hf : s.free with
  | nil =>
    simp only [Array.getElem?_push]
    split
    · rfl
    · rfl
  | cons j rest =>
    simp only [hf, Array.getElem?_modify] at hnext ⊢
    rcases hnext with hnext | hnext
    · cases hs : s.slots[j]? with
      | none =>
        rw [hs] at hnext
        cases hnext
      | some slot =>
        by_cases hij : i = j
        · simp [hij, hs]
        · rw [if_neg (Ne.symm hij), if_neg hij]
    · -- a vacant slot is none that is still to come
      have hj : s.occupied[j]? = some false := (h.mem_free j).1 (by simp [hf])
      have hlt : j < s.occupied.length := (List.getElem?_eq_some_iff.1 hj).1
      rw [occupied_eq, List.length_map] at hlt
      have hidx : j = s.tenants.length := congrArg Handle.index hnext
      omega

theorem tenants_vacate (h : s.isAlive id = true) (i : Nat) :
    (s.vacate id).tenants[i]? =
      if i = id.index then some (nextGeneration id.generation, false) else s.tenants[i]? := by
  have hid := isAlive_iff_tenants.1 h
  rw [tenants_getElem?] at hid ⊢
  rw [tenants_getElem?]
  unfold vacate
  rw [Array.getElem?_modify]
  by_cases hi : i = id.index
  · rw [if_pos hi.symm, if_pos hi, hi]
    cases hs : s.slots[id.index]? with
    | none =>
      rw [hs] at hid
      cases hid
    | some slot => rfl
  · rw [if_neg (Ne.symm hi), if_neg hi]

end Slots

/-! ## What the record says of a slot -/

namespace Mark

/-- The connections that have gone. -/
def departures (t : List (Mark H)) : List Handle := t.filterMap fun
  | .freed id => some id
  | _ => none

/-- How often a slot was vacated. -/
def vacated (t : List (Mark H)) (i : Nat) : Nat := (departures t).countP (·.index = i)

@[simp] theorem departures_append (t u : List (Mark H)) : departures (t ++ u) = departures t ++ departures u :=
  List.filterMap_append

@[simp] theorem vacated_append (t u : List (Mark H)) (i : Nat) : vacated (t ++ u) i = vacated t i + vacated u i := by
  simp [vacated]

theorem mem_departures : id ∈ departures t ↔ .freed id ∈ t := by
  unfold departures
  rw [List.mem_filterMap]
  constructor
  · rintro ⟨m, hm, heq⟩
    cases m <;> cases heq
    exact hm
  · intro hm
    exact ⟨_, hm, rfl⟩

theorem vacated_freed (id : Handle) (i : Nat) : vacated [(.freed id : Mark H)] i = if id.index = i then 1 else 0 := by
  simp [vacated, departures]

end Mark

open Mark Slots

/-- The record of the connections that have come and gone, and the slots that they have left, agree. -/
structure Ledger (h : List (Mark H)) (s : Slots H) : Prop where
  counted : s.Counted
  generation : ∀ i g o, s.tenants[i]? = some (g, o) → g = vacated h i
  untouched : ∀ i, s.tenants.length ≤ i → vacated h i = 0
  /-- Who is there has come. -/
  come : ∀ id, s.isAlive id = true → id ∈ births h
  /-- Who has come is there, or has gone. -/
  gone : ∀ id ∈ births h, s.isAlive id = true ∨ id ∈ departures h
  /-- Who has gone was here in an earlier generation. -/
  past : ∀ id ∈ departures h, id.generation < vacated h id.index ∧ id ∈ births h
  fresh : (births h).Nodup

namespace Ledger

theorem empty : Ledger ([] : List (Mark H)) {} := by
  have hnone : ∀ i : Nat, ({} : Slots H).tenants[i]? = none := fun i => by simp [tenants]
  refine ⟨⟨by simp [occupied], List.nodup_nil, fun i => by simp [occupied]⟩, fun i g o hi => ?_, fun _ _ => rfl,
    fun id hid => ?_, ?_, ?_, List.nodup_nil⟩
  · rw [hnone] at hi
    cases hi
  · rw [isAlive_iff_tenants, hnone] at hid
    cases hid
  · intro id hid
    cases hid
  · intro id hid
    cases hid

/-- Who is there is of the present generation of its slot. -/
theorem generation_eq (hl : Ledger h s) (hid : s.isAlive id = true) : id.generation = vacated h id.index :=
  hl.generation _ _ _ (isAlive_iff_tenants.1 hid)

/-- Who has gone is not there. -/
theorem dead (hl : Ledger h s) (hid : id ∈ departures h) : s.isAlive id = false := by
  rw [Bool.eq_false_iff]
  intro hlive
  have hnow := hl.generation_eq hlive
  have hbefore := (hl.past id hid).1
  omega

/-- Who is there has come, and has not gone. -/
theorem alive_iff (hl : Ledger h s) : s.isAlive id = true ↔ .born id ∈ h ∧ .freed id ∉ h := by
  constructor
  · intro hlive
    refine ⟨mem_births.1 (hl.come id hlive), fun hgone => ?_⟩
    rw [hl.dead (mem_departures.2 hgone)] at hlive
    cases hlive
  · rintro ⟨hborn, hstay⟩
    exact (hl.gone id (mem_births.2 hborn)).resolve_right fun hgone => hstay (mem_departures.1 hgone)

theorem of_settled (hl : Ledger h s) (hs : Settled s s') : Ledger h s' := by
  have halive : ∀ x, s'.isAlive x = true ↔ s.isAlive x = true := by
    intro x
    rw [isAlive_iff_tenants, isAlive_iff_tenants, hs.tenants]
  refine ⟨hs.counted hl.counted, ?_, ?_, fun x hx => hl.come x ((halive x).1 hx), fun x hx => ?_, hl.past, hl.fresh⟩
  · rw [hs.tenants]
    exact hl.generation
  · rw [hs.tenants]
    exact hl.untouched
  · exact (hl.gone x hx).imp_left (halive x).2

theorem of_marks (hl : Ledger h s) (hb : births t = []) (hd : departures t = []) : Ledger (h ++ t) s := by
  have hv : ∀ i, vacated (h ++ t) i = vacated h i := by
    intro i
    rw [vacated_append]
    simp [vacated, hd]
  have hb' : births (h ++ t) = births h := by rw [births_append, hb, List.append_nil]
  have hd' : departures (h ++ t) = departures h := by rw [departures_append, hd, List.append_nil]
  refine ⟨hl.counted, ?_, ?_, ?_, ?_, ?_, ?_⟩
  · simp only [hv]
    exact hl.generation
  · simp only [hv]
    exact hl.untouched
  · rw [hb']
    exact hl.come
  · rw [hb', hd']
    exact hl.gone
  · simp only [hb', hd', hv]
    exact hl.past
  · rw [hb']
    exact hl.fresh

/-- **A connection that comes has a handle of its own**, and the record and the slots go on agreeing. -/
theorem insert (hl : Ledger h s) (name : String) (layer : Layer H) :
    Ledger (h ++ [.born s.nextHandle]) (s.insert name layer) := by
  have hnext := nextHandle_cases hl.counted
  have htenants : ∀ i : Nat, (s.insert name layer).tenants[i]? =
      if i = s.nextHandle.index then some (s.nextHandle.generation, true) else s.tenants[i]? := tenants_insert hl.counted
  have hgen : s.nextHandle.generation = vacated h s.nextHandle.index := by
    rcases hnext with hnext | hnext
    · exact hl.generation _ _ _ hnext
    · rw [hnext]
      exact (hl.untouched _ (Nat.le_refl _)).symm
  have hdead : s.isAlive s.nextHandle = false := isAlive_eq_false.2 (find?_nextHandle hl.counted)
  -- who has gone from this slot was of an earlier generation
  have hnew : s.nextHandle ∉ births h := by
    intro hborn
    rcases hl.gone _ hborn with hlive | hgone
    · rw [hdead] at hlive
      cases hlive
    · have hpast := (hl.past _ hgone).1
      omega
  have hv : ∀ i, vacated (h ++ [.born s.nextHandle]) i = vacated h i := fun i => by simp [vacated, departures]
  have hb : births (h ++ [.born s.nextHandle]) = births h ++ [s.nextHandle] := by simp [births]
  have hd : departures (h ++ [.born s.nextHandle]) = departures h := by simp [departures]
  have halive : ∀ x, (s.insert name layer).isAlive x = true ↔ x = s.nextHandle ∨ s.isAlive x = true := by
    intro x
    unfold isAlive
    rw [find?_insert hl.counted]
    by_cases hx : x = s.nextHandle
    · simp [hx]
    · simp [hx]
  refine ⟨hl.counted.insert, fun i g o hi => ?_, fun i hi => ?_, fun x hx => ?_, fun x hx => ?_, ?_, ?_⟩
  · rw [hv]
    rw [htenants] at hi
    split at hi
    · rename_i heq
      cases hi
      rw [heq]
      exact hgen
    · exact hl.generation i g o hi
  · rw [hv]
    refine hl.untouched i ?_
    by_contra hlt
    have hsome : s.tenants[i]? ≠ none := by
      rw [ne_eq, List.getElem?_eq_none_iff]
      exact hlt
    have hnone := List.getElem?_eq_none hi
    rw [htenants] at hnone
    split at hnone
    · cases hnone
    · exact hsome hnone
  · rw [hb, List.mem_append, List.mem_singleton]
    rcases (halive x).1 hx with hx | hx
    · exact .inr hx
    · exact .inl (hl.come x hx)
  · rw [hd]
    rw [hb, List.mem_append, List.mem_singleton] at hx
    rcases hx with hx | hx
    · exact (hl.gone x hx).imp_left fun hx => (halive x).2 (.inr hx)
    · exact .inl ((halive x).2 (.inl hx))
  · intro x hx
    rw [hd] at hx
    rw [hv, hb, List.mem_append]
    exact ⟨(hl.past x hx).1, .inl (hl.past x hx).2⟩
  · rw [hb]
    exact hl.fresh.append (List.nodup_singleton _) (by simpa using hnew)

/-- **A connection that goes has gone for good**: its slot comes to a later generation. -/
theorem vacate (hl : Ledger h s) (hid : s.isAlive id = true)
    (hbound : vacated (h ++ [.freed id]) id.index < 2 ^ 32) : Ledger (h ++ [.freed id]) (s.vacate id) := by
  obtain ⟨e, he⟩ := isAlive_iff.1 hid
  have htenants := tenants_vacate hid
  have hgen := hl.generation_eq hid
  have hv : ∀ i, vacated (h ++ [.freed id]) i = vacated h i + if id.index = i then 1 else 0 := fun i => by
    rw [vacated_append, vacated_freed]
  have hb : births (h ++ [.freed id]) = births h := by simp [births]
  have hd : departures (h ++ [.freed id]) = departures h ++ [id] := by simp [departures]
  have halive : ∀ x, (s.vacate id).isAlive x = true ↔ x ≠ id ∧ s.isAlive x = true := by
    intro x
    unfold isAlive
    rw [find?_vacate he]
    by_cases hx : x = id
    · simp [hx]
    · simp [hx]
  refine ⟨hl.counted.vacate he, fun i g o hi => ?_, fun i hi => ?_, fun x hx => ?_, fun x hx => ?_, ?_, ?_⟩
  · rw [htenants] at hi
    rw [hv]
    split at hi
    · rename_i heq
      cases hi
      rw [hv, if_pos rfl] at hbound
      rw [heq, if_pos rfl, hgen]
      exact Nat.mod_eq_of_lt hbound
    · rename_i hne
      rw [if_neg (Ne.symm hne), Nat.add_zero]
      exact hl.generation i g o hi
  · have hlt : id.index < s.tenants.length := by
      have hsome := isAlive_iff_tenants.1 hid
      exact (List.getElem?_eq_some_iff.1 hsome).1
    have hlen : (s.vacate id).tenants.length = s.tenants.length := by
      rw [length_tenants, length_tenants]
      exact Array.size_modify
    rw [hlen] at hi
    rw [hv, if_neg (by omega), Nat.add_zero]
    exact hl.untouched i hi
  · rw [hb]
    exact hl.come x ((halive x).1 hx).2
  · rw [hb] at hx
    rw [hd, List.mem_append, List.mem_singleton]
    by_cases hxid : x = id
    · exact .inr (.inr hxid)
    · rcases hl.gone x hx with hlive | hgone
      · exact .inl ((halive x).2 ⟨hxid, hlive⟩)
      · exact .inr (.inl hgone)
  · intro x hx
    rw [hd, List.mem_append, List.mem_singleton] at hx
    rw [hb, hv]
    rcases hx with hx | hx
    · have hpast := hl.past x hx
      exact ⟨by omega, hpast.2⟩
    · subst hx
      rw [if_pos rfl]
      exact ⟨by omega, hl.come x hid⟩
  · rw [hb]
    exact hl.fresh

end Ledger

end Conduit
