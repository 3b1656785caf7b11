import Conduit.Stack.Slots

/-!
# What handles name

What becomes of `Slots.find?` when a connection is changed. A handle names at most one tenant of a slot, so a change
through one handle is never seen through another.
-/

namespace Conduit

theorem Callbacks.get_set {C : Type} (c : Callbacks C) (k k' : CallbackKind) (v : Option C) :
    (c.set k v).get k' = if k' = k then v else c.get k' := by
  cases k <;> cases k' <;> rfl

namespace Slots

variable {H : Host} {s s' : Slots H} {id other : Handle} {f g : Entry H → Entry H}

theorem find?_update_self : (s.update id f).find? id = (s.find? id).map f := by
  unfold update find?
  simp only [Array.getElem?_modify, if_true]
  cases s.slots[id.index]? with
  | none => rfl
  | some slot =>
    simp only [Option.map_some]
    by_cases h : slot.generation = id.generation
    · rw [if_pos h, if_pos h, if_pos h]
    · rw [if_neg h, if_neg h]
      rfl

theorem find?_update_of_ne (h : other ≠ id) : (s.update id f).find? other = s.find? other := by
  unfold update find?
  simp only [Array.getElem?_modify]
  by_cases hi : id.index = other.index
  · rw [if_pos hi]
    cases hs : s.slots[other.index]? with
    | none => rfl
    | some slot =>
      simp only [Option.map_some]
      by_cases hg : slot.generation = id.generation
      · -- the tenant is the one that `id` names, so it is not the one that `other` names
        have hne : slot.generation ≠ other.generation := by
          intro hg'
          apply h
          cases id
          cases other
          simp_all
        rw [if_pos hg, if_neg hne, if_neg hne]
      · rw [if_neg hg]
  · rw [if_neg hi]

theorem find?_update : (s.update id f).find? other = if other = id then (s.find? id).map f else s.find? other := by
  split
  · rename_i h
    rw [h, find?_update_self]
  · rename_i h
    exact find?_update_of_ne h

/-- What a handle names depends on the slots only. -/
theorem find?_congr (h : s'.slots = s.slots) : s'.find? id = s.find? id := by
  unfold find?
  rw [h]

theorem update_update : (s.update id f).update id g = s.update id fun e => g (f e) := by
  unfold update
  congr 1
  refine Array.ext_getElem? fun i => ?_
  simp only [Array.getElem?_modify]
  split
  · cases s.slots[i]? with
    | none => rfl
    | some slot =>
      simp only [Option.map_some]
      by_cases hg : slot.generation = id.generation
      · rw [if_pos hg, if_pos hg, if_pos hg, Option.map_map]
        rfl
      · rw [if_neg hg, if_neg hg, if_neg hg]
  · rfl

/-- A change that leaves a connection as it is changes nothing. -/
theorem update_eq_self (h : ∀ e, s.find? id = some e → f e = e) : s.update id f = s := by
  have hslots : (s.slots.modify id.index fun slot =>
      if slot.generation = id.generation then { slot with entry := slot.entry.map f } else slot) = s.slots := by
    refine Array.ext_getElem? fun i => ?_
    rw [Array.getElem?_modify]
    split
    · rename_i hi
      subst hi
      unfold find? at h
      cases hs : s.slots[id.index]? with
      | none => rfl
      | some slot =>
        rw [hs] at h
        rw [Option.map_some]
        by_cases hg : slot.generation = id.generation
        · simp only [hg, if_true] at h
          obtain ⟨generation, entry⟩ := slot
          rw [if_pos hg]
          cases entry with
          | none => rfl
          | some e => rw [Option.map_some, h e rfl]
        · rw [if_neg hg]
    · rfl
  unfold update
  rw [hslots]

/-! ## A layer that runs -/

/-- A connection apart from its layer. -/
def bare (e : Entry H) : Entry H := { e with layer := none }

/-- The slots while the layer of `id` runs. -/
def away (s : Slots H) (id : Handle) : Slots H := { s.update id bare with depth := s.depth + 1 }

/-- The slots once the layer of `id` has been put back. -/
def back (s : Slots H) (id : Handle) (l : Layer H) : Slots H :=
  ({ s with depth := s.depth - 1 } : Slots H).update id fun e => { e with layer := some l }

theorem back_away {l : Layer H} : (s.away id).back id l = s.update id fun e => { e with layer := some l } := by
  show (({ s with depth := s.depth } : Slots H).update id bare).update id _ = _
  rw [update_update]
  rfl

/-! ## Slots that are alike -/

/-- The same is named by every handle, at the same depth. -/
structure Alike (s s' : Slots H) : Prop where
  find? : ∀ id, s'.find? id = s.find? id
  depth : s'.depth = s.depth
  pumping : s'.pumping = s.pumping

theorem Alike.refl (s : Slots H) : Alike s s := ⟨fun _ => rfl, rfl, rfl⟩

theorem Alike.trans {s₁ : Slots H} (h : Alike s s₁) (h' : Alike s₁ s') : Alike s s' :=
  ⟨fun id => (h'.find? id).trans (h.find? id), h'.depth.trans h.depth, h'.pumping.trans h.pumping⟩

end Slots

end Conduit
