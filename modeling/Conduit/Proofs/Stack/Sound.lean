import Conduit.Proofs.Stack.Arena

/-!
# The stack while layers run

A layer that runs is away from its slot; all others are in place. A layer works on what is below it, so what is asked of
a connection may only do away with connections further down.

* `Slots.Sound`: the slots while some layers run.
* `Slots.Clear`: no layer that runs is at or below a connection.
* `Slots.Shrinks`: connections may have gone, and the others are linked upwards as before.
-/

namespace Conduit.Slots

variable {H : Host} {s s' s'' : Slots H} {id x y : Handle} {e : Entry H} {f : Entry H → Entry H} {R : List Handle}
  {name : String} {layer : Layer H}

/-- The slots while the layers of `R` run. -/
structure Sound (s : Slots H) (R : List Handle) : Prop extends Linked s where
  home : ∀ x e, s.find? x = some e → (e.layer = none ↔ x ∈ R)
  running : ∀ x ∈ R, s.isAlive x = true
  depth : s.depth = R.length

/-- The queue has no part in it. -/
theorem Sound.of_same (h : s.Sound R) (hslots : s'.slots = s.slots) (hfree : s'.free = s.free)
    (hlive : s'.live = s.live) (hdepth : s'.depth = s.depth) : s'.Sound R := by
  cases s
  cases s'
  subst hslots hfree hlive hdepth
  exact ⟨⟨⟨h.live, h.nodup, h.mem_free⟩, h.agree, h.acyclic⟩, h.home, h.running, h.depth⟩

theorem Sound.update (h : s.Sound R) (hi : ∀ e, (f e).inner = e.inner) (ho : ∀ e, (f e).outer = e.outer)
    (hl : ∀ e, (f e).layer = e.layer) : (s.update id f).Sound R := by
  refine ⟨h.toLinked.update (fun e _ => hi e) (fun e _ => ho e), fun x e he => ?_, fun x hx => ?_, h.depth⟩
  · rw [find?_update] at he
    split at he
    · rename_i hx
      subst hx
      obtain ⟨e', he', rfl⟩ := Option.map_eq_some_iff.1 he
      rw [hl]
      exact h.home x e' he'
    · exact h.home x e he
  · rw [isAlive_update]
    exact h.running x hx

theorem Sound.enqueue (h : s.Sound R) (id : Handle) (ev : Event) : (s.enqueue id ev).Sound R := by
  unfold Slots.enqueue
  split
  · split
    · exact h
    · split
      · exact h.of_same rfl rfl rfl rfl
      · have htake : (s.takeCallback id .err).Sound R := h.update (fun _ => rfl) (fun _ => rfl) fun _ => rfl
        exact htake.of_same rfl rfl rfl rfl
  · exact h.of_same rfl rfl rfl rfl

/-- A layer is taken out of its slot. -/
theorem Sound.enter (h : s.Sound R) (hid : s.isAlive id = true) :
    ({ s.update id fun e => { e with layer := none } with depth := s.depth + 1 } : Slots H).Sound (id :: R) := by
  have hlinked : (s.update id fun e => { e with layer := none }).Linked :=
    h.toLinked.update (fun _ _ => rfl) fun _ _ => rfl
  refine ⟨⟨⟨hlinked.live, hlinked.nodup, hlinked.mem_free⟩, hlinked.agree, hlinked.acyclic⟩, fun x e he => ?_,
    fun x hx => ?_, ?_⟩
  · change (s.update id _).find? x = some e at he
    rw [find?_update] at he
    split at he
    · rename_i hx
      subst hx
      obtain ⟨e', -, rfl⟩ := Option.map_eq_some_iff.1 he
      simp
    · rename_i hx
      rw [h.home x e he, List.mem_cons]
      simp [hx]
  · show (s.update id _).isAlive x = true
    rw [isAlive_update]
    rcases List.mem_cons.1 hx with rfl | hx
    · exact hid
    · exact h.running x hx
  · show s.depth + 1 = R.length + 1
    rw [h.depth]

/-- A layer is put back into its slot. -/
theorem Sound.leave (h : s.Sound (id :: R)) (hid : id ∉ R) (l : Layer H) :
    (({ s with depth := s.depth - 1 } : Slots H).update id fun e => { e with layer := some l }).Sound R := by
  have hs : ({ s with depth := s.depth - 1 } : Slots H).Linked :=
    ⟨⟨h.live, h.nodup, h.mem_free⟩, h.agree, h.acyclic⟩
  refine ⟨hs.update (fun _ _ => rfl) fun _ _ => rfl, fun x e he => ?_, fun x hx => ?_, ?_⟩
  · rw [find?_update] at he
    split at he
    · rename_i hx
      subst hx
      obtain ⟨e', -, rfl⟩ := Option.map_eq_some_iff.1 he
      simp [hid]
    · rename_i hx
      have hhome := h.home x e he
      rw [List.mem_cons] at hhome
      simpa [hx] using hhome
  · rw [isAlive_update]
    exact h.running x (List.mem_cons_of_mem _ hx)
  · show s.depth - 1 = R.length
    rw [h.depth]
    rfl

theorem Sound.insert (h : s.Sound R) (name : String) (layer : Layer H) : (s.insert name layer).Sound R := by
  have hnext := find?_nextHandle h.toCounted
  have hne : ∀ x ∈ R, x ≠ s.nextHandle := by
    intro x hx hc
    obtain ⟨e, he⟩ := isAlive_iff.1 (h.running x hx)
    rw [hc, hnext] at he
    cases he
  refine ⟨h.toLinked.insert, fun x e he => ?_, fun x hx => ?_, ?_⟩
  · rw [find?_insert h.toCounted] at he
    split at he
    · rename_i hx
      cases he
      constructor
      · intro hc
        cases hc
      · intro hc
        exact absurd hx (hne x hc)
    · exact h.home x e he
  · obtain ⟨e, he⟩ := isAlive_iff.1 (h.running x hx)
    refine isAlive_iff.2 ⟨e, ?_⟩
    rw [find?_insert h.toCounted, if_neg (hne x hx)]
    exact he
  · unfold Slots.insert
    split <;> exact h.depth

theorem Sound.link (h : s.Sound R) {i o : Entry H} (hx : s.find? x = some i) (hxo : i.outer = none)
    (hy : s.find? y = some o) (hyi : o.inner = none) (hyo : o.outer = none) (hne : x ≠ y) : (s.link x y).Sound R := by
  -- links are all that changes
  have hfound : ∀ {z e}, (s.link x y).find? z = some e → ∃ e', s.find? z = some e' ∧ e'.layer = e.layer := by
    intro z e he
    unfold Slots.link at he
    rw [find?_update] at he
    split at he
    · rename_i hz
      subst hz
      rw [find?_update_of_ne hne] at he
      obtain ⟨e', he', rfl⟩ := Option.map_eq_some_iff.1 he
      exact ⟨e', he', rfl⟩
    · rw [find?_update] at he
      split at he
      · rename_i hz
        subst hz
        obtain ⟨e', he', rfl⟩ := Option.map_eq_some_iff.1 he
        exact ⟨e', he', rfl⟩
      · exact ⟨e, he, rfl⟩
  refine ⟨h.toLinked.link hx hxo hy hyi hyo hne, fun z e he => ?_, fun z hz => ?_, h.depth⟩
  · obtain ⟨e', he', hl⟩ := hfound he
    rw [← hl]
    exact h.home z e' he'
  · unfold Slots.link
    rw [isAlive_update, isAlive_update]
    exact h.running z hz

theorem Linked.isAlive_release (h : s.Linked) (he : s.find? id = some e) :
    (s.release id e).isAlive x = (s.isAlive x && decide (x ≠ id)) := by
  unfold isAlive
  rw [h.find?_release he]
  by_cases hx : x = id
  · simp [hx]
  · simp only [hx, if_false, ne_eq, not_false_eq_true, decide_true, Bool.and_true]
    split
    · rw [Option.isSome_map]
    · split
      · rw [Option.isSome_map]
      · rfl

/-- Letting go concerns the slots only. -/
theorem letGo_frame (s : Slots H) (id : Handle) (outer : Option Handle) :
    (s.letGo id outer).queue = s.queue ∧ (s.letGo id outer).pumping = s.pumping ∧
      (s.letGo id outer).depth = s.depth := by
  cases outer with
  | none => exact ⟨rfl, rfl, rfl⟩
  | some outer => exact ⟨rfl, rfl, rfl⟩

theorem bereave_frame (s : Slots H) (id : Handle) (inner : Option Handle) :
    (s.bereave id inner).queue = s.queue ∧ (s.bereave id inner).pumping = s.pumping ∧
      (s.bereave id inner).depth = s.depth := by
  cases inner with
  | none => exact ⟨rfl, rfl, rfl⟩
  | some inner =>
    unfold bereave
    dsimp only
    split
    · exact ⟨rfl, rfl, rfl⟩
    · exact ⟨rfl, rfl, rfl⟩

theorem release_frame (s : Slots H) (id : Handle) (e : Entry H) :
    (s.release id e).queue = s.queue ∧ (s.release id e).pumping = s.pumping ∧ (s.release id e).depth = s.depth := by
  obtain ⟨hqueue, hpumping, hdepth⟩ := bereave_frame ((s.vacate id).letGo id e.outer) id e.inner
  obtain ⟨hqueue', hpumping', hdepth'⟩ := letGo_frame (s.vacate id) id e.outer
  exact ⟨hqueue.trans hqueue', hpumping.trans hpumping', hdepth.trans hdepth'⟩

/-- A connection whose layer has said farewell is taken out. -/
theorem Sound.freed (h : s.Sound (id :: R)) (hid : id ∉ R) (he : s.find? id = some e) :
    (({ s with depth := s.depth - 1 } : Slots H).release id e).Sound R := by
  have hs : ({ s with depth := s.depth - 1 } : Slots H).Linked :=
    ⟨⟨h.live, h.nodup, h.mem_free⟩, h.agree, h.acyclic⟩
  refine ⟨hs.release he, fun x e' he' => ?_, fun x hx => ?_, ?_⟩
  · rw [hs.find?_release he] at he'
    split at he'
    · cases he'
    · rename_i hx
      -- whoever loses a neighbour keeps its layer
      have hlayer : ∃ e₀, s.find? x = some e₀ ∧ e₀.layer = e'.layer := by
        split at he'
        · obtain ⟨e₀, he₀, rfl⟩ := Option.map_eq_some_iff.1 he'
          exact ⟨e₀, he₀, rfl⟩
        · split at he'
          · obtain ⟨e₀, he₀, rfl⟩ := Option.map_eq_some_iff.1 he'
            exact ⟨e₀, he₀, rfl⟩
          · exact ⟨e', he', rfl⟩
      obtain ⟨e₀, he₀, hl⟩ := hlayer
      have hhome := h.home x e₀ he₀
      rw [List.mem_cons] at hhome
      rw [← hl]
      simpa [hx] using hhome
  · have hne : x ≠ id := fun hc => hid (hc ▸ hx)
    rw [hs.isAlive_release he, Bool.and_eq_true]
    exact ⟨h.running x (List.mem_cons_of_mem _ hx), by simpa using hne⟩
  · obtain ⟨-, -, hdepth⟩ := release_frame ({ s with depth := s.depth - 1 } : Slots H) id e
    rw [hdepth]
    show s.depth - 1 = R.length
    rw [h.depth]
    rfl

/-! ## What is below -/

/-- No layer of `R` is the one of `x` or further down. -/
def Clear (s : Slots H) (R : List Handle) (x : Handle) : Prop := ∀ r ∈ R, ¬ s.Below x r

theorem clear_nil (s : Slots H) (x : Handle) : Clear s [] x := by simp [Clear]

theorem Clear.not_mem (h : s.Clear R x) : x ∉ R := fun hx => h x hx .refl

theorem Clear.down (h : s.Clear R x) (hon : s.On x y) : s.Clear R y := fun r hr hyr => h r hr (hyr.head hon)

/-- What a layer stands on is clear of it as well. -/
theorem Clear.enter (h : s.Clear R x) (hl : s.Linked) (hon : s.On x y) : s.Clear (x :: R) y := by
  intro r hr hyr
  rcases List.mem_cons.1 hr with rfl | hr
  · exact hl.acyclic r (.head' hon hyr)
  · exact h.down hon r hr hyr

/-- Connections may have gone; the others are linked upwards as before, and have the callbacks they had. Only events
that a layer takes, or that follow their source, have been queued. -/
structure Shrinks (s s' : Slots H) : Prop where
  kept : ∀ x e', s'.find? x = some e' → ∃ e, s.find? x = some e ∧ e'.outer = e.outer ∧ e'.callbacks = e.callbacks
  pumping : s'.pumping = s.pumping
  queue : ∃ q, s'.queue = s.queue ++ q ∧ ∀ item ∈ q, ∀ code, item.route ≠ .sink code

theorem Shrinks.refl (s : Slots H) : s.Shrinks s := ⟨fun _ e he => ⟨e, he, rfl, rfl⟩, rfl, [], by simp, by simp⟩

theorem Shrinks.trans (h : s.Shrinks s') (h' : s'.Shrinks s'') : s.Shrinks s'' := by
  refine ⟨fun x e'' he'' => ?_, h'.pumping.trans h.pumping, ?_⟩
  · obtain ⟨e', he', ho', hc'⟩ := h'.kept x e'' he''
    obtain ⟨e, he, ho, hc⟩ := h.kept x e' he'
    exact ⟨e, he, ho'.trans ho, hc'.trans hc⟩
  · obtain ⟨q, hq, hsink⟩ := h.queue
    obtain ⟨q', hq', hsink'⟩ := h'.queue
    refine ⟨q ++ q', by rw [hq', hq, List.append_assoc], fun item hitem => ?_⟩
    rcases List.mem_append.1 hitem with hitem | hitem
    · exact hsink item hitem
    · exact hsink' item hitem

theorem Shrinks.isAlive (h : s.Shrinks s') (hx : s'.isAlive x = true) : s.isAlive x = true := by
  obtain ⟨e', he'⟩ := isAlive_iff.1 hx
  obtain ⟨e, he, -⟩ := h.kept x e' he'
  exact isAlive_iff.2 ⟨e, he⟩

theorem Shrinks.on (h : s.Shrinks s') (hl : s.Linked) (hl' : s'.Linked) (hon : s'.On x y) : s.On x y := by
  obtain ⟨e', he', ho'⟩ := outer?_eq_some.1 ((hl'.agree x y).1 hon)
  obtain ⟨e, he, ho, -⟩ := h.kept y e' he'
  exact (hl.agree x y).2 (outer?_eq_some.2 ⟨e, he, ho ▸ ho'⟩)

theorem Clear.shrinks (hc : s.Clear R x) (h : s.Shrinks s') (hl : s.Linked) (hl' : s'.Linked) : s'.Clear R x :=
  fun r hr hxr => hc r hr (Relation.ReflTransGen.mono (fun _ _ hon => h.on hl hl' hon) x r hxr)

theorem Shrinks.of_update (ho : ∀ e, (f e).outer = e.outer) (hc : ∀ e, (f e).callbacks = e.callbacks) :
    s.Shrinks (s.update id f) := by
  refine ⟨fun x e' he' => ?_, rfl, [], by simp [Slots.update], by simp⟩
  rw [find?_update] at he'
  split at he'
  · rename_i hx
    subst hx
    obtain ⟨e, he, rfl⟩ := Option.map_eq_some_iff.1 he'
    exact ⟨e, he, ho e, hc e⟩
  · exact ⟨e', he', rfl, rfl⟩

/-- Slots that differ in their counters only. -/
theorem Shrinks.of_same (hslots : s'.slots = s.slots) (hqueue : s'.queue = s.queue) (hp : s'.pumping = s.pumping) :
    s.Shrinks s' := by
  refine ⟨fun x e' he' => ⟨e', ?_, rfl, rfl⟩, hp, [], by simp [hqueue], by simp⟩
  unfold find? at he' ⊢
  rw [hslots] at he'
  exact he'

end Conduit.Slots
