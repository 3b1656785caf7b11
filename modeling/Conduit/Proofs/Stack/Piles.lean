import Conduit.Proofs.Stack.Follows

/-!
# Piles of connections that hand on

-/

namespace Conduit

variable {H : Host}

/-- What a connection keeps of an operation beside its layer. -/
def Op.tune : Op → Entry H → Entry H
  | .setPoll n, e => { e with pollInterval := n }
  | _, e => e

/-- Where the last event of a connection goes. -/
def Entry.farewell (e : Entry H) : Route H.Code :=
  match e.outer with
  | some outer => .layer outer
  | none => .sink e.callbacks.err

/-- A layer that has nothing to do when its connection is freed. -/
inductive Layer.Spent : Layer H → Prop
  | plain {l : Plain H.Pcb} (h : l.pcb = none) : Spent (.plain l)
  | passthrough (name : String) : Spent (.passthrough name)

namespace Slots

variable {s s' s'' : Slots H} {id i x : Handle} {hs : List Handle} {e : Entry H}

/-- The connections `hs`, of which `top` is the uppermost, are gone, and what stood on them has lost them. -/
structure Without (top : Handle) (hs : List Handle) (s s' : Slots H) : Prop where
  find? : ∀ x, s'.find? x =
    if x ∈ hs then none else if s.outer? top = some x then (s.find? x).map (losing top) else s.find? x
  depth : s'.depth = s.depth
  pumping : s'.pumping = s.pumping

theorem Without.congr {s₁ : Slots H} {top : Handle} (h : Without top hs s₁ s') (hf : ∀ x ∉ hs, s₁.find? x = s.find? x)
    (ho : s₁.outer? top = s.outer? top) (hd : s₁.depth = s.depth) (hp : s₁.pumping = s.pumping) : Without top hs s s' := by
  refine ⟨fun x => ?_, h.depth.trans hd, h.pumping.trans hp⟩
  rw [h.find?, ho]
  by_cases hx : x ∈ hs
  · rw [if_pos hx, if_pos hx]
  · rw [if_neg hx, if_neg hx, hf x hx]

/-- The connection `t` has the layer `l`; it and the connections `zs` that stand on it have been changed by `g`. -/
structure Kept (g : Entry H → Entry H) (t : Handle) (zs : List Handle) (l : Plain H.Pcb) (s s' : Slots H) : Prop where
  find? : ∀ x, s'.find? x =
    if x = t then (s.find? x).map fun e => { g e with layer := some (.plain l) }
    else if x ∈ zs then (s.find? x).map g else s.find? x
  queue : s'.queue = s.queue
  depth : s'.depth = s.depth
  pumping : s'.pumping = s.pumping

/-- A layer was away and has come back. -/
theorem kept_back {t : Handle} (l : Plain H.Pcb) : Kept (fun e => e) t [] l s ((s.away t).back t (.plain l)) := by
  refine ⟨fun x => ?_, rfl, rfl, rfl⟩
  rw [find?_back, find?_away, find?_away, if_pos rfl]
  by_cases hx : x = t
  · rw [if_pos hx, if_pos hx, hx, Option.map_map]
    rfl
  · rw [if_neg hx, if_neg hx, if_neg hx]
    rfl

theorem Kept.update {g : Entry H → Entry H} {t : Handle} {l : Plain H.Pcb} (h : Kept (fun e => e) t [] l (s.update t g) s') :
    Kept g t [] l s s' := by
  refine ⟨fun x => ?_, h.queue, h.depth, h.pumping⟩
  rw [h.find?, find?_update]
  by_cases hx : x = t
  · rw [if_pos hx, if_pos hx, if_pos hx, hx, Option.map_map]
    rfl
  · rw [if_neg hx, if_neg hx, if_neg hx, if_neg List.not_mem_nil, if_neg List.not_mem_nil]

/-- A connection queues its last event. -/
theorem enqueue_error (he : s.find? id = some e) (r : Fault) :
    (s.enqueue id (.error r)).queue = s.queue ++ [⟨id, .error r, e.farewell⟩] ∧
      (s.enqueue id (.error r)).depth = s.depth ∧ (s.enqueue id (.error r)).pumping = s.pumping ∧
      ∃ c, ∀ x, (s.enqueue id (.error r)).find? x = if x = id then some { e with callbacks := c } else s.find? x := by
  obtain ⟨layer, name, inner, outer, callbacks, epoch, interval⟩ := e
  unfold enqueue Entry.farewell
  simp only [he]
  cases outer with
  | some o =>
    refine ⟨rfl, rfl, rfl, callbacks, fun x => ?_⟩
    by_cases hx : x = id
    · rw [if_pos hx, hx]
      exact he
    · rw [if_neg hx]
      rfl
  | none =>
    refine ⟨rfl, rfl, rfl, callbacks.set .err none, fun x => ?_⟩
    refine (find?_update (s := s)).trans ?_
    rw [he]
    rfl

section

variable {t z : Handle} {zs : List Handle} {l : Plain H.Pcb} {layer : Layer H}

theorem Kept.widen (h : Kept (fun e => e) t zs l s s') (zs' : List Handle) : Kept (fun e => e) t zs' l s s' := by
  refine ⟨fun y => ?_, h.queue, h.depth, h.pumping⟩
  have hmap : (s.find? y).map (fun e => e) = s.find? y := Option.map_id'
  rw [h.find?, hmap, ite_self, ite_self]

theorem Kept.retune {g : Entry H → Entry H} (h : Kept g t zs l (s.update z g) s') (hz : z ∉ zs ++ [t]) :
    Kept g t (z :: zs) l s s' := by
  rw [List.mem_append, not_or, List.mem_singleton] at hz
  refine ⟨fun y => ?_, h.queue, h.depth, h.pumping⟩
  rw [h.find?, find?_update]
  by_cases hy : y = z
  · rw [if_pos hy, if_neg (hy ▸ hz.2), if_neg (hy ▸ hz.1), if_neg (hy ▸ hz.2), if_pos (hy ▸ List.mem_cons_self), hy]
  · simp only [hy, if_false, List.mem_cons, false_or]

/-- What stands on a connection has been changed with it, and the layer of one more is put back. -/
theorem Kept.back {g : Entry H → Entry H} (h : Kept g t zs l (s.away z) s') (hz : z ∉ zs ++ [t])
    (he : s.find? z = some e) (hl : e.layer = some layer) : Kept g t zs l s (s'.back z layer) := by
  rw [List.mem_append, not_or, List.mem_singleton] at hz
  have haway : (s.away z).find? z = some (bare e) := find?_away_self he
  refine ⟨fun y => ?_, h.queue, ?_, h.pumping⟩
  · rw [find?_back, h.find?, if_neg hz.2, if_neg hz.1, haway]
    by_cases hy : y = z
    · rw [if_pos hy, hy, if_neg hz.2, if_neg hz.1, he]
      show some { e with layer := some layer } = some e
      rw [← hl]
    · rw [if_neg hy, h.find?, find?_away, if_neg hy]
  · show s'.depth - 1 = s.depth
    rw [h.depth]
    rfl

/-- A connection and what it stood on are gone. -/
theorem Without.stack {s₁ s₂ : Slots H} (h : Without i hs (s.away z) s₁)
    (h' : Without z [z] (s₁.back z layer) s₂) (hi : s.outer? i = some z) (hz : z ∉ hs) (he : s.find? z = some e) :
    Without z (z :: hs) s s₂ := by
  have hout : (s.away z).outer? i = some z := (outer?_away i).trans hi
  have hown : (s₁.back z layer).outer? z = s.outer? z := by
    show ((s₁.back z layer).find? z).bind (·.outer) = (s.find? z).bind (·.outer)
    rw [find?_back, if_pos rfl, h.find?, if_neg hz, if_pos hout, find?_away_self he, he]
    show (losing i (bare e)).outer = e.outer
    unfold losing
    split <;> rfl
  refine ⟨fun y => ?_, ?_, h'.pumping.trans h.pumping⟩
  · rw [h'.find?, hown]
    by_cases hy : y = z
    · rw [if_pos (List.mem_singleton.2 hy), if_pos (hy ▸ List.mem_cons_self)]
    · have hback : (s₁.back z layer).find? y = if y ∈ hs then none else s.find? y := by
        rw [find?_back, if_neg hy, h.find?, find?_away, if_neg hy, hout,
          if_neg fun hc => hy (Option.some.inj hc).symm]
      rw [if_neg (fun hc => hy (List.mem_singleton.1 hc)), hback]
      by_cases hmem : y ∈ hs
      · rw [if_pos hmem, if_pos (List.mem_cons_of_mem _ hmem)]
        split <;> rfl
      · have hnot : y ∉ z :: hs := by simp only [List.mem_cons, not_or]; exact ⟨hy, hmem⟩
        rw [if_neg hmem, if_neg hnot]
  · refine h'.depth.trans ?_
    show s₁.depth - 1 = s.depth
    rw [h.depth]
    rfl

/-- A connection goes after what it stood on. -/
theorem Without.onto {s₁ s₂ : Slots H} (h : Without i hs s s₁)
    (h' : Without z [z] s₁ s₂) (hi : s.outer? i = some z) (hz : z ∉ hs) : Without z (z :: hs) s s₂ := by
  have hout : s₁.outer? z = s.outer? z := by
    unfold outer?
    rw [h.find?, if_neg hz, if_pos hi]
    cases s.find? z with
    | none => rfl
    | some e =>
      show (losing i e).outer = e.outer
      unfold losing
      split <;> rfl
  refine ⟨fun y => ?_, h'.depth.trans h.depth, h'.pumping.trans h.pumping⟩
  rw [h'.find?, hout]
  by_cases hy : y = z
  · rw [if_pos (List.mem_singleton.2 hy), if_pos (hy ▸ List.mem_cons_self)]
  · have hrest : s₁.find? y = if y ∈ hs then none else s.find? y := by
      rw [h.find?, hi, if_neg fun hc => hy (Option.some.inj hc).symm]
    rw [if_neg fun hc => hy (List.mem_singleton.1 hc), hrest]
    by_cases hmem : y ∈ hs
    · rw [if_pos hmem, if_pos (List.mem_cons_of_mem _ hmem)]
      split <;> rfl
    · rw [if_neg hmem, if_neg fun hc => (List.mem_cons.1 hc).elim hy hmem]

/-- What stands on a connection that is gone has lost it. -/
theorem Without.above {s₁ : Slots H} (h : Without i hs (s.away z) s₁)
    (hi : s.outer? i = some z) (hz : z ∉ hs) (he : s.find? z = some e) (hin : e.inner = some i) :
    (s₁.back z layer).find? z = some { bare e with layer := some layer, inner := none } := by
  have hout : (s.away z).outer? i = some z := (outer?_away i).trans hi
  rw [find?_back, if_pos rfl, h.find?, if_neg hz, if_pos hout, find?_away_self he]
  have hlosing : losing i (bare e) = { bare e with inner := none } := if_pos hin
  show some { losing i (bare e) with layer := some layer } = _
  rw [hlosing]

end

/-- The connections `zs` stand on one another, and the last of them on `t`; they hand on what they are asked. What stands
on the uppermost is `up`. -/
def Pile (s : Slots H) (t : Handle) : Option Handle → List Handle → Prop
  | up, [] => s.outer? t = up
  | up, z :: zs => (∃ e name, s.find? z = some e ∧ e.layer = some (.passthrough name) ∧ e.inner = some (zs.headD t) ∧
      e.outer = up) ∧ s.Pile t (some z) zs

section

variable {t : Handle} {up : Option Handle} {zs : List Handle}

theorem Pile.congr (h : s.Pile t up zs) (hf : ∀ y ∈ zs, s'.find? y = s.find? y) (ht : s'.outer? t = s.outer? t) :
    s'.Pile t up zs := by
  induction zs generalizing up with
  | nil => exact ht.trans h
  | cons z zs ih =>
    obtain ⟨⟨e, name, he, hrest⟩, hbelow⟩ := h
    exact ⟨⟨e, name, (hf z List.mem_cons_self).trans he, hrest⟩, ih hbelow fun y hy => hf y (List.mem_cons_of_mem _ hy)⟩

theorem Pile.outer_head (h : s.Pile t up zs) : s.outer? (zs.headD t) = up := by
  cases zs with
  | nil => exact h
  | cons z zs =>
    obtain ⟨⟨e, name, he, -, -, hout⟩, -⟩ := h
    show (s.find? z).bind (·.outer) = up
    rw [he]
    exact hout

theorem Pile.alive (h : s.Pile t up zs) {x : Handle} (hx : x ∈ zs) : ∃ e, s.find? x = some e := by
  induction zs generalizing up with
  | nil => exact absurd hx List.not_mem_nil
  | cons z zs ih =>
    obtain ⟨⟨e, name, he, -⟩, hbelow⟩ := h
    rcases List.mem_cons.1 hx with rfl | hx
    · exact ⟨e, he⟩
    · exact ih hbelow hx

/-- A pile of which the uppermost connection learns what stands on it. -/
theorem Pile.crowned {z : Handle} (h : s.Pile t up zs) (hn : (zs ++ [t]).Nodup) (he : s.find? (zs.headD t) = some e)
    (hs' : ∀ x ∈ zs ++ [t], s'.find? x = if x = zs.headD t then some { e with outer := some z } else s.find? x) :
    s'.Pile t (some z) zs := by
  cases zs with
  | nil =>
    have ht : s'.find? t = some { e with outer := some z } := (hs' t (by simp)).trans (if_pos rfl)
    exact outer?_eq_some.2 ⟨_, ht, rfl⟩
  | cons y ys =>
    obtain ⟨⟨ey, name, hey, hl, hi, -⟩, hbelow⟩ := h
    obtain rfl : e = ey := Option.some.inj (he.symm.trans hey)
    rw [List.cons_append, List.nodup_cons] at hn
    have hother : ∀ x ∈ ys ++ [t], s'.find? x = s.find? x := fun x hx =>
      (hs' x (List.mem_cons_of_mem _ hx)).trans (if_neg fun hc : x = y => hn.1 (hc ▸ hx))
    refine ⟨⟨{ e with outer := some z }, name, (hs' y (by simp)).trans (if_pos rfl), hl, hi, rfl⟩, ?_⟩
    exact hbelow.congr (fun x hx => hother x (by simp [hx])) (congrArg (·.bind (·.outer)) (hother t (by simp)))

theorem Pile.isAlive_head (h : s.Pile t up zs) (ht : s.isAlive t = true) : s.isAlive (zs.headD t) = true := by
  cases zs with
  | nil => exact ht
  | cons z zs =>
    obtain ⟨⟨e, name, he, -⟩, -⟩ := h
    exact isAlive_iff.2 ⟨e, he⟩

end

end Slots

namespace Stack

open Exec Slots

variable {b : Behaviour H} {w w' u v : World H} {A A' : Answers H} {id : Handle} {e : Entry H} {k : Nat} {layer : Layer H}

theorem dealloc_spent (he : w.stack.find? id = some e) (hl : e.layer = some layer) (hs : layer.Spent) :
    dealloc b A id w = .ok () { w with stack := { w.stack.away id with depth := w.stack.depth } } := by
  have hlookup : lookup id w = .ok (some e) w := congrArg (EStateM.Result.ok · w) he
  unfold dealloc
  rw [bind_ok hlookup]
  simp only [Option.bind_some, hl]
  cases hs with
  | plain h =>
    rename_i l
    obtain ⟨p, rx, i, fp, fd, r⟩ := l
    cases h
    rfl
  | passthrough name => rfl

/-- **A connection whose layer has nothing to say is freed** when it stands on none. -/
theorem freeEntry_spent (hb : b.Logless) (he : w.stack.find? id = some e) (hl : e.layer = some layer) (hs : layer.Spent)
    (hi : e.inner = none) (ho : e.outer ≠ some id) :
    ∃ u, freeEntry b A (k + 1) id w = .ok () u ∧ Same w u ∧ Without id [id] w.stack u.stack ∧
      u.stack.queue = w.stack.queue := by
  have houter : w.stack.outer? id = e.outer := by
    unfold outer?
    rw [he]
    rfl
  -- after the farewell
  generalize hs₁ : ({ w.stack.away id with depth := w.stack.depth } : Slots H) = s₁
  have hfind : ∀ x, s₁.find? x = if x = id then some (bare e) else w.stack.find? x := by
    intro x
    rw [← hs₁]
    refine (find?_away (s := w.stack)).trans ?_
    rw [he]
    rfl
  have hid : s₁.find? id = some (bare e) := by rw [hfind, if_pos rfl]
  have hvacate : ∀ x, (s₁.vacate id).find? x = if x = id then none else w.stack.find? x := by
    intro x
    rw [find?_vacate hid, hfind]
    split <;> rfl
  have hlookup : lookup id { w with stack := s₁ } = .ok (some (bare e)) { w with stack := s₁ } :=
    congrArg (EStateM.Result.ok · _) hid
  have hdealloc : dealloc b A id w = .ok () { w with stack := s₁ } := hs₁ ▸ dealloc_spent he hl hs
  unfold freeEntry
  rw [bind_ok hdealloc, bind_ok hlookup]
  simp only [bare, hi, note_eq hb]
  cases hout : e.outer with
  | none =>
    refine ⟨_, rfl, ⟨rfl, rfl, rfl⟩, ⟨fun x => ?_, ?_, ?_⟩, ?_⟩
    · refine (hvacate x).trans ?_
      rw [houter, hout]
      simp
    · exact hs₁ ▸ rfl
    · exact hs₁ ▸ rfl
    · exact hs₁ ▸ rfl
  | some o =>
    have hne : o ≠ id := fun hc => ho (hc ▸ hout)
    refine ⟨_, rfl, ⟨rfl, rfl, rfl⟩, ⟨fun x => ?_, ?_, ?_⟩, ?_⟩
    · refine (find?_update (s := s₁.vacate id)).trans ?_
      rw [houter, hout, hvacate, hvacate]
      by_cases hx : x = o
      · subst hx
        simp [hne]
        rfl
      · simp [hx, Ne.symm hx]
    · exact hs₁ ▸ rfl
    · exact hs₁ ▸ rfl
    · exact hs₁ ▸ rfl

/-- A connection queues its last event and is freed. -/
theorem part_spent (hb : b.Logless) (he : w.stack.find? id = some e) (hl : e.layer = some layer) (hs : layer.Spent)
    (hi : e.inner = none) (ho : e.outer ≠ some id) (r : Fault) :
    ∃ u, (do enqueue id (.error r); freeEntry b A (k + 1) id : Exec H Unit) w = .ok () u ∧ Same w u ∧
      Without id [id] w.stack u.stack ∧ u.stack.queue = w.stack.queue ++ [⟨id, .error r, e.farewell⟩] := by
  obtain ⟨hqueue, hdepth, hpumping, c, hfind⟩ := enqueue_error he r
  obtain ⟨u, hfree, hsame, hwithout, hq⟩ := freeEntry_spent (w := { w with stack := w.stack.enqueue id (.error r) })
    (e := { e with callbacks := c }) (A := A) (k := k) hb ((hfind id).trans (if_pos rfl)) hl hs hi ho
  refine ⟨u, (bind_ok (x := enqueue id (.error r)) rfl _).trans hfree, ⟨hsame.net, hsame.shared, hsame.memory⟩,
    hwithout.congr (fun x hx => ?_) ?_ hdepth hpumping, hq.trans hqueue⟩
  · exact (hfind x).trans (if_neg fun hc => hx (List.mem_singleton.2 hc))
  · unfold outer?
    rw [hfind, if_pos rfl, he]
    rfl

/-! ## Layers at work -/

/-- A method has run, and its layer is put back. -/
theorem withLayer_done {m : Method} {free : Handle → Exec H Unit} {y : (Layer H × m.Reply) × Bool}
    (he : w.stack.find? id = some e) (hl : e.layer = some layer)
    (hrun : ((runMethod b A id m layer).run false) { w with stack := w.stack.away id } = .ok y u)
    (ha : u.stack.isAlive id = true) :
    withLayer b A free id m w =
      ((if y.2 then free id else pure () : Exec H Unit) >>= fun _ => pure (.ok y.1.2))
        { u with stack := u.stack.back id y.1.1 } := by
  obtain ⟨⟨l, r⟩, flag⟩ := y
  refine (withLayer_run he hl hrun ha).trans ?_
  cases flag <;> rfl

/-- A method that halts halts whatever it was run for. -/
theorem withLayer_halt {m : Method} {free : Handle → Exec H Unit} {h : Halt} (he : w.stack.find? id = some e)
    (hl : e.layer = some layer)
    (hrun : ((runMethod b A id m layer).run false) { w with stack := w.stack.away id } = .error h u) :
    withLayer b A free id m w = .error h u := by
  have hlookup : lookup id w = .ok (some e) w := congrArg (EStateM.Result.ok · w) he
  unfold withLayer
  rw [bind_ok hlookup]
  simp only [hl]
  exact (bind_ok (u := { w with stack := w.stack.away id }) rfl _).trans (bind_error hrun _)

section

variable {α : Type} {m : Method} {free free' : Handle → Exec H Unit} {layer' : Layer H} {e' : Entry H}

/-- Methods of two layers. -/
theorem follows_withLayers {post : Except Fault m.Reply → World H → Except Fault m.Reply → World H → Prop}
    (he : w.stack.find? id = some e) (hl : e.layer = some layer) (he' : w'.stack.find? id = some e')
    (hl' : e'.layer = some layer')
    (h : Follows ((runMethod b A id m layer).run false) ((runMethod b A' id m layer').run false)
      { w with stack := w.stack.away id } { w' with stack := w'.stack.away id } fun x u y v =>
        u.stack.isAlive id = true ∧ v.stack.isAlive id = true ∧
          Follows (if x.2 then free id else pure ()) (if y.2 then free' id else pure ())
            { u with stack := u.stack.back id x.1.1 } { v with stack := v.stack.back id y.1.1 } fun _ u _ v =>
              post (.ok x.1.2) u (.ok y.1.2) v) :
    Follows (withLayer b A free id m) (withLayer b A' free' id m) w w' post := by
  rcases h.ends with ⟨x, u, y, v, hx, hy, hu, hv, hfree⟩ | ⟨u, hx⟩ | ⟨g, u, v, hx, hy⟩
  · exact .of_eq (withLayer_done he hl hx hu) (withLayer_done he' hl' hy hv) (Follows.then_pure hfree)
  · exact follows_outOfFuel (withLayer_halt he hl hx)
  · exact follows_error (withLayer_halt he hl hx) (withLayer_halt he' hl' hy)

/-- A method of one layer, where the first run has no part in the connection. -/
theorem follows_withLayer {x : Exec H α} {post : α → World H → Except Fault m.Reply → World H → Prop}
    (he : w'.stack.find? id = some e) (hl : e.layer = some layer)
    (h : Follows x ((runMethod b A id m layer).run false) w { w' with stack := w'.stack.away id } fun a u y v =>
      v.stack.isAlive id = true ∧ ∃ v', (if y.2 then free id else pure () : Exec H Unit)
        { v with stack := v.stack.back id y.1.1 } = .ok () v' ∧ post a u (.ok y.1.2) v') :
    Follows x (withLayer b A free id m) w w' post := by
  rcases h.ends with ⟨a, u, y, v, hx, hy, hv, v', hfree, hpost⟩ | ⟨u, hx⟩ | ⟨g, u, v, hx, hy⟩
  · exact follows_ok hx ((withLayer_done he hl hy hv).trans (bind_ok hfree _)) hpost
  · exact follows_outOfFuel hx
  · exact follows_error hx (withLayer_halt he hl hy)

end

/-- A layer that hands on asks the connection below, and lets its own go if that has closed. -/
theorem passthrough_op {o : Op} {i : Handle} {name : String} (hi : w.stack.inner? id = some i) (hl : ∀ e, o ≠ .lower e) :
    ((runMethod b A id (.op o) (.passthrough name)).run false) w =
      (A (.ask i o) >>= fun r => pure ((.passthrough name, r), o.releases r)) w := by
  have hbelow : ∀ (o : Op) (absent : o.Reply),
      ((do
        let (r, _) ← ((Layer.Act.below o absent : Layer.Act H Unit o.Reply).run ()).run (answerLayer b A id)
        pure (.passthrough name, r) : Running H (Layer H × o.Reply)).run false) w =
        (A (.ask i o) >>= fun r => pure ((.passthrough name, r), false)) w := by
    intro o absent
    unfold Layer.Act.below
    simp only [Layer.Act.inner, Layer.Act.ask, Layer.Act.request, StateT.run_bind, StateT.run_lift, Program.run_bind,
      Program.request, Program.run_ask, bind_assoc]
    rw [bind_ok (answer_inner hi)]
    simp only [Program.run_done, StateT.run_pure, pure_bind, Program.run_bind, StateT.run_bind, StateT.run_lift,
      Program.run_ask, Program.pure_eq, bind_assoc]
    rw [show answerLayer b A id (.ask i o) = monadLift (A (.ask i o)) from rfl, StateT.run_monadLift]
    simp only [bind_assoc, pure_bind]
    rfl
  cases o with
  | lower e => exact absurd rfl (hl e)
  | close =>
    refine (passthrough_close hi).trans (congrFun (bind_congr fun r => ?_) w)
    cases r <;> rfl
  | _ => exact hbelow _ _

/-! ## Operations -/

section

variable (b A) (free : Handle → Exec H Unit) (id : Handle)

/-- Runs a method for the application; a connection that cannot be reached is answered for. -/
def tried (o : Op) : Exec H o.Reply := do
  match ← withLayer b A free id (.op o) with
  | .ok r => pure r
  | .error f => pure (o.refused f)

/-- An operation apart from the deliveries that it causes. -/
def attempt : (o : Op) → Exec H o.Reply
  | .abort => do
    if (← getSlots).isAlive id then
      note b (.debug "abort requested" [id.field])
      let _ ← withLayer b A free id (.op .abort)
      if (← getSlots).isAlive id then
        enqueue id (.error .aborted)
        free id
  | .setPoll interval => do
    if (← getSlots).isAlive id then
      modifySlots fun s => s.update id fun e => { e with pollInterval := interval }
      tried b A free id (.setPoll interval)
  | .lower e => do
    note b (.trace "lower event injected" [id.field, ("event", e.label)])
    tried b A free id (.lower e)
  | o => tried b A free id o

end

theorem exec_attempt (k : Nat) {o : Op} (ha : w.stack.isAlive id = true) :
    exec b (k + 1) (.ask id o) w =
      (attempt b (exec b k) (freeEntry b (exec b k) k) id o >>= fun r =>
        pump b (exec b k) (freeEntry b (exec b k) k) k >>= fun _ => pure r) w := by
  have hcall : ∀ o : Op, call b (exec b k) (freeEntry b (exec b k) k) k id o =
      tried b (exec b k) (freeEntry b (exec b k) k) id o >>= fun r =>
        pump b (exec b k) (freeEntry b (exec b k) k) k >>= fun _ => pure r := by
    intro o
    unfold call tried
    rw [bind_assoc]
    refine bind_congr fun r => ?_
    cases r <;> rfl
  show operate b (exec b k) (freeEntry b (exec b k) k) k id o w = _
  cases o with
  | abort =>
    simp only [operate, attempt, bind_assoc]
    rw [bind_ok (getSlots_eq w), bind_ok (getSlots_eq w), if_pos ha, if_pos ha]
    simp only [bind_assoc]
    refine congrFun (bind_congr fun _ => bind_congr fun _ => bind_congr fun s => ?_) w
    cases s.isAlive id with
    | false => exact bind_pure_unit.symm
    | true =>
      simp only [if_true, bind_assoc]
      exact bind_congr fun _ => bind_congr fun _ => bind_pure_unit.symm
  | setPoll n =>
    simp only [operate, attempt, bind_assoc]
    rw [bind_ok (getSlots_eq w), bind_ok (getSlots_eq w), if_pos ha, if_pos ha, bind_assoc, hcall]
  | lower e =>
    simp only [operate, attempt, bind_assoc]
    rw [hcall]
  | _ => exact congrFun (hcall _) w

/-! ## A plain connection -/

/-- A connection over an endpoint, which stands on none. -/
structure Ground (s : Slots H) (t : Handle) (l : Plain H.Pcb) (e : Entry H) : Prop where
  find? : s.find? t = some e
  layer : e.layer = some (.plain l)
  inner : e.inner = none
  outer : e.outer ≠ some t

/-- The last event of a connection, on its way to one of `zs`. -/
def Litter (zs : List Handle) (q : Queued H) : Prop := ∃ z ∈ zs, ∃ r, q.event = .error r ∧ q.route = .layer z

/-- The last events of the connection `t` and of those that stand on it, `zs`, when all are aborted: only that of the
uppermost is not for one of them. -/
def Parting (t : Handle) (zs : List Handle) (s : Slots H) (qs : List (Queued H)) : Prop :=
  ∃ litter e, s.find? (zs.headD t) = some e ∧ litter.length = zs.length ∧ (∀ q ∈ litter, Litter zs q) ∧
    qs = litter ++ [⟨zs.headD t, .error .aborted, e.farewell⟩]

theorem Parting.stack {t z : Handle} {zs : List Handle} {s : Slots H} {qs : List (Queued H)}
    (h : Parting t zs (s.away z) qs) (hout : s.outer? (zs.headD t) = some z) (he : s.find? z = some e) :
    Parting t (z :: zs) s (qs ++ [⟨z, .error .aborted, e.farewell⟩]) := by
  obtain ⟨litter, ei, hei, hlength, hlitter, rfl⟩ := h
  have houter : ei.outer = some z := by
    have hout' : (s.away z).outer? (zs.headD t) = some z := (outer?_away _).trans hout
    unfold outer? at hout'
    rwa [hei] at hout'
  have hroute : ei.farewell = .layer z := by
    unfold Entry.farewell
    rw [houter]
  refine ⟨litter ++ [⟨zs.headD t, .error .aborted, ei.farewell⟩], e, he, by simp [hlength], fun q hq => ?_, rfl⟩
  rcases List.mem_append.1 hq with hq | hq
  · obtain ⟨y, hy, r, hr⟩ := hlitter q hq
    exact ⟨y, List.mem_cons_of_mem _ hy, r, hr⟩
  · rw [List.mem_singleton.1 hq]
    exact ⟨z, List.mem_cons_self, .aborted, rfl, hroute⟩

/-- The connection `t` and those that stand on it, `zs`, are gone, since they were asked `o`. -/
structure Gone (o : Op) (t : Handle) (zs : List Handle) (s s' : Slots H) : Prop where
  without : Without (zs.headD t) (zs ++ [t]) s s'
  queue : ∃ qs, s'.queue = s.queue ++ qs ∧ if o = .abort then Parting t zs s qs else qs = []

theorem Gone.quiet {o : Op} {t : Handle} {zs : List Handle} {s s' : Slots H} (ho : o ≠ .abort)
    (h : Without (zs.headD t) (zs ++ [t]) s s') (hq : s'.queue = s.queue) : Gone o t zs s s' :=
  ⟨h, [], hq.trans (List.append_nil _).symm, by rw [if_neg ho]⟩

/-- The connection `t`, of which `f` may be out in `w`, has been asked `o` there, and in `w'` the uppermost of those that
stand on it. In one as in the other, with the same answer, all is there or all is gone. -/
structure Reached (o : Op) (t : Handle) (zs : List Handle) (f : Option Segments) (l : Plain H.Pcb) (w w' : World H)
    (r : o.Reply) (u : World H) (r' : o.Reply) (v : World H) : Prop where
  reply : r' = r
  same : Same u v
  layers : if o.ends r then Gone o t [] w.stack u.stack ∧ Gone o t zs w'.stack v.stack
    else ∃ l₁ : Plain H.Pcb, (l.Drained → l₁.Drained) ∧ Kept o.tune t [] (l₁.loaded f) w.stack u.stack ∧
      Kept o.tune t zs l₁ w'.stack v.stack

section

variable {t : Handle} {l : Plain H.Pcb} {f : Option Segments} {o : Op} {e' : Entry H} {k k' : Nat}

/-- A plain layer, of which `f` may be out, at work in two worlds. -/
theorem runMethod_plain (hb : b.Logless) (h : Same w w')
    (hpoll : (w'.stack.find? t).map (·.pollInterval) = (w.stack.find? t).map (·.pollInterval))
    (hf : f ≠ none → l.Drained) (hl : ∀ e, o ≠ .lower e) (hd : o ≠ .shutdown .both) :
    Twin ((runMethod b A t (.op o) (.plain (l.loaded f))).run false) ((runMethod b A' t (.op o) (.plain l)).run false) w w'
      fun x u y v => (∃ (a : o.Reply) (la lb : Plain H.Pcb),
        x = ((.plain la, a), o.releases a) ∧ y = ((.plain lb, a), o.releases a) ∧
        if o.ends a then la.pcb = none ∧ lb.pcb = none else la = lb.loaded f ∧ (l.Drained → lb.Drained)) ∧
        Same u v ∧ u.stack = w.stack ∧ v.stack = w'.stack := by
  show Twin (((((Plain.step t (.op o)).run (l.loaded f)).run (answerLayer b A t)) >>= fun y =>
      pure (Layer.plain y.2, y.1) : Running H _).run false)
    (((((Plain.step t (.op o)).run l).run (answerLayer b A' t)) >>= fun y => pure (Layer.plain y.2, y.1) : Running H _).run
      false) w w' _
  rw [StateT.run_bind, StateT.run_bind]
  refine Twin.bind ((Plain.op_twin hb h hpoll hf hl hd).mono ?_)
  rintro ⟨⟨a, la⟩, flag⟩ u ⟨⟨a', lb⟩, flag'⟩ v ⟨⟨hreply, hflag, hsame, hlayers⟩, hrest⟩
  obtain rfl : a' = a := hreply
  obtain rfl : flag' = flag := hsame
  obtain rfl : flag' = o.releases a' := hflag
  exact ⟨⟨a', la, lb, rfl, rfl, hlayers⟩, hrest⟩

theorem withLayer_plain (hb : b.Logless) (h : Same w w') (hg : Ground w.stack t (l.loaded f) e)
    (hg' : Ground w'.stack t l e') (hp : e'.pollInterval = e.pollInterval) (hf : f ≠ none → l.Drained)
    (hl : ∀ e, o ≠ .lower e) (hd : o ≠ .shutdown .both) :
    Follows (withLayer b A (freeEntry b A k) t (.op o)) (withLayer b A' (freeEntry b A' (k' + 1)) t (.op o)) w w'
      fun r u r' v => ∃ a, r = .ok a ∧ r' = .ok a ∧ Same u v ∧
        if o.releases a then
          (Without t [t] w.stack u.stack ∧ u.stack.queue = w.stack.queue) ∧
            Without t [t] w'.stack v.stack ∧ v.stack.queue = w'.stack.queue
        else ∃ la lb, Kept (fun e => e) t [] la w.stack u.stack ∧ Kept (fun e => e) t [] lb w'.stack v.stack ∧
          if o.ends a then la.pcb = none ∧ lb.pcb = none else la = lb.loaded f ∧ (l.Drained → lb.Drained) := by
  have haway : ∀ {s : Slots H} {l : Plain H.Pcb} {e : Entry H}, Ground s t l e → (s.away t).find? t = some (bare e) := by
    intro s l e hg
    exact find?_away_self hg.find?
  -- a connection whose layer is put back without an endpoint, and is freed
  have hfree : ∀ {A : Answers H} {k : Nat} {w u : World H} {l l' : Plain H.Pcb} {e : Entry H}, Ground w.stack t l e →
      u.stack = w.stack.away t → l'.pcb = none →
      ∃ z, freeEntry b A (k + 1) t { u with stack := u.stack.back t (.plain l') } = .ok () z ∧ Same u z ∧
        Without t [t] w.stack z.stack ∧ z.stack.queue = w.stack.queue := by
    intro A k w u l l' e hg hu hpcb
    have hback : (u.stack.back t (.plain l')).find? t = some { bare e with layer := some (.plain l') } := by
      rw [find?_back, if_pos rfl, hu, haway hg]
      rfl
    obtain ⟨z, hz, hsame, hwithout, hqueue⟩ := freeEntry_spent (w := { u with stack := u.stack.back t (.plain l') })
      (A := A) (k := k) hb hback rfl (.plain hpcb) hg.inner hg.outer
    have hkept : Kept (fun e => e) t [] l' w.stack (u.stack.back t (.plain l')) := by
      rw [hu]
      exact kept_back l'
    refine ⟨z, hz, ⟨hsame.net, hsame.shared, hsame.memory⟩, hwithout.congr (fun x hx => ?_) ?_ hkept.depth hkept.pumping,
      hqueue.trans hkept.queue⟩
    · have hne : x ≠ t := fun hc => hx (List.mem_singleton.2 hc)
      refine (hkept.find? x).trans ?_
      rw [if_neg hne, if_neg List.not_mem_nil]
    · show ((u.stack.back t (.plain l')).find? t).bind (·.outer) = (w.stack.find? t).bind (·.outer)
      rw [hback, hg.find?]
      rfl
  have hpoll : ((w'.stack.away t).find? t).map (·.pollInterval) = ((w.stack.away t).find? t).map (·.pollInterval) := by
    rw [haway hg, haway hg']
    exact congrArg some hp
  refine follows_withLayers hg.find? hg.layer hg'.find? hg'.layer (.of_twin
    ((runMethod_plain hb (show Same { w with stack := w.stack.away t } { w' with stack := w'.stack.away t } from
      ⟨h.net, h.shared, h.memory⟩) hpoll hf hl hd).mono ?_))
  rintro _ u _ v ⟨⟨a, la, lb, rfl, rfl, hlayers⟩, hs, hu, hv⟩
  refine ⟨isAlive_iff.2 ⟨_, (congrArg (·.find? t) hu).trans (haway hg)⟩,
    isAlive_iff.2 ⟨_, (congrArg (·.find? t) hv).trans (haway hg')⟩, ?_⟩
  simp only
  cases hr : o.releases a with
  | true =>
    rw [if_pos (ends_of_releases hr)] at hlayers
    cases k with
    | zero => exact follows_outOfFuel rfl
    | succ k =>
      obtain ⟨z, hz, hsz, hwz⟩ := hfree (A := A) (k := k) hg hu hlayers.1
      obtain ⟨z', hz', hsz', hwz'⟩ := hfree (A := A') (k := k') hg' hv hlayers.2
      refine follows_ok hz hz' ⟨a, rfl, rfl, ?_, ?_⟩
      · exact hsz.symm.trans (hs.trans hsz')
      · rw [if_pos hr]
        exact ⟨hwz, hwz'⟩
  | false =>
    refine follows_pure ⟨a, rfl, rfl, ⟨hs.net, hs.shared, hs.memory⟩, ?_⟩
    rw [hr, if_neg Bool.false_ne_true]
    exact ⟨la, lb, by rw [hu]; exact kept_back la, by rw [hv]; exact kept_back lb, hlayers⟩

/-- A plain connection is asked, but not to be aborted. -/
theorem tried_plain (hb : b.Logless) (h : Same w w') (hg : Ground w.stack t (l.loaded f) e)
    (hg' : Ground w'.stack t l e') (hp : e'.pollInterval = e.pollInterval) (hf : f ≠ none → l.Drained)
    (hl : ∀ e, o ≠ .lower e) (hd : o ≠ .shutdown .both) (ho : o ≠ .abort) :
    Follows (tried b A (freeEntry b A k) t o) (tried b A' (freeEntry b A' (k' + 1)) t o) w w' fun r u r' v =>
      r' = r ∧ Same u v ∧ if o.ends r then Gone o t [] w.stack u.stack ∧ Gone o t [] w'.stack v.stack
        else ∃ l₁ : Plain H.Pcb, (l.Drained → l₁.Drained) ∧ Kept (fun e => e) t [] (l₁.loaded f) w.stack u.stack ∧
          Kept (fun e => e) t [] l₁ w'.stack v.stack := by
  refine Follows.bind ((withLayer_plain hb h hg hg' hp hf hl hd).mono ?_)
  rintro _ u _ v ⟨a, rfl, rfl, hs, hends⟩
  refine follows_pure ⟨rfl, hs, ?_⟩
  rw [ends_eq_releases ho] at hends ⊢
  cases hr : o.releases a with
  | true =>
    rw [hr, if_pos rfl] at hends
    exact ⟨.quiet ho hends.1.1 hends.1.2, .quiet ho hends.2.1 hends.2.2⟩
  | false =>
    rw [hr, if_neg Bool.false_ne_true] at hends
    obtain ⟨la, lb, hu, hv, hlayers⟩ := hends
    rw [if_neg Bool.false_ne_true] at hlayers ⊢
    exact ⟨lb, hlayers.2, hlayers.1 ▸ hu, hv⟩

/-- A plain connection without an endpoint says farewell and is freed. -/
theorem Ground.part (hb : b.Logless) (hg : Ground w.stack t l e) {l' : Plain H.Pcb}
    (hu : Kept (fun e => e) t [] l' w.stack u.stack) (hl : l'.pcb = none) :
    ∃ v, (do enqueue t (.error .aborted); freeEntry b A (k + 1) t : Exec H Unit) u = .ok () v ∧ Same u v ∧
      Gone .abort t [] w.stack v.stack := by
  have hfind : u.stack.find? t = some { e with layer := some (.plain l') } := by
    rw [hu.find?, if_pos rfl, hg.find?]
    rfl
  obtain ⟨v, hv, hs, hwithout, hq⟩ := part_spent (A := A) (k := k) hb hfind rfl (.plain hl) hg.inner hg.outer .aborted
  refine ⟨v, hv, hs, ⟨hwithout.congr (fun x hx => ?_) ?_ hu.depth hu.pumping, _, hq.trans (by rw [hu.queue]), ?_⟩⟩
  · have hne : x ≠ t := fun hc => hx (List.mem_singleton.2 hc)
    rw [hu.find?, if_neg hne, if_neg List.not_mem_nil]
  · show (u.stack.find? t).bind (·.outer) = (w.stack.find? t).bind (·.outer)
    rw [hfind, hg.find?]
    rfl
  · rw [if_pos rfl]
    exact ⟨[], e, hg.find?, rfl, by simp, rfl⟩

/-- An operation on a plain connection, of which `f` may be out, in two worlds. -/
theorem attempt_plain (hb : b.Logless) (h : Same w w') (hg : Ground w.stack t (l.loaded f) e)
    (hg' : Ground w'.stack t l e') (hp : e'.pollInterval = e.pollInterval) (hf : f ≠ none → l.Drained)
    (hl : ∀ e, o ≠ .lower e) (hd : o ≠ .shutdown .both) :
    Follows (attempt b A (freeEntry b A k) t o) (attempt b A' (freeEntry b A' (k' + 1)) t o) w w'
      (Reached o t [] f l w w') := by
  have halive : w.stack.isAlive t = true := isAlive_iff.2 ⟨_, hg.find?⟩
  have halive' : w'.stack.isAlive t = true := isAlive_iff.2 ⟨_, hg'.find?⟩
  have htried : o ≠ .abort → (o.tune : Entry H → Entry H) = (fun e => e) →
      Follows (tried b A (freeEntry b A k) t o) (tried b A' (freeEntry b A' (k' + 1)) t o) w w' (Reached o t [] f l w w') := by
    intro ho htune
    refine (tried_plain hb h hg hg' hp hf hl hd ho).mono ?_
    rintro r u r' v ⟨hr, hs, hlayers⟩
    rw [← htune] at hlayers
    exact ⟨hr, hs, hlayers⟩
  cases o with
  | lower e => exact absurd rfl (hl e)
  | setPoll n =>
    have hset : ∀ {s : Slots H} {l : Plain H.Pcb} {e : Entry H}, Ground s t l e →
        Ground (s.update t fun e => { e with pollInterval := n }) t l { e with pollInterval := n } := by
      intro s l e hg
      refine ⟨?_, hg.layer, hg.inner, hg.outer⟩
      rw [find?_update, if_pos rfl, hg.find?]
      rfl
    simp only [attempt]
    refine .of_eq (bind_ok (getSlots_eq w) _) (bind_ok (getSlots_eq w') _) ?_
    rw [if_pos halive, if_pos halive']
    have hsame : Same { w with stack := w.stack.update t fun e => { e with pollInterval := n } }
        { w' with stack := w'.stack.update t fun e => { e with pollInterval := n } } := ⟨h.net, h.shared, h.memory⟩
    refine .of_eq (bind_ok (x := modifySlots _) rfl _) (bind_ok (x := modifySlots _) rfl _)
      ((tried_plain hb hsame (hset hg) (hset hg') rfl hf hl hd (by simp)).mono ?_)
    rintro r u r' v ⟨hr, hs, l₁, hdrained, hu, hv⟩
    exact ⟨hr, hs, l₁, hdrained, hu.update, hv.update⟩
  | abort =>
    simp only [attempt, note_eq hb, pure_bind]
    refine .of_eq (bind_ok (getSlots_eq w) _) (bind_ok (getSlots_eq w') _) ?_
    rw [if_pos halive, if_pos halive']
    refine Follows.bind ((withLayer_plain hb h hg hg' hp hf hl hd).mono ?_)
    rintro _ u _ v ⟨a, rfl, rfl, hs, la, lb, hu, hv, hla, hlb⟩
    have hstays : ∀ {l l' : Plain H.Pcb} {s s' : Slots H} {e : Entry H}, Ground s t l e →
        Kept (fun e => e) t [] l' s s' → s'.isAlive t = true := by
      intro l l' s s' e hg hk
      refine isAlive_iff.2 ⟨{ e with layer := some (.plain l') }, ?_⟩
      rw [hk.find?, if_pos rfl, hg.find?]
      rfl
    refine .of_eq (bind_ok (getSlots_eq u) _) (bind_ok (getSlots_eq v) _) ?_
    rw [if_pos (hstays hg hu), if_pos (hstays hg' hv)]
    cases k with
    | zero => exact follows_outOfFuel rfl
    | succ k =>
      obtain ⟨z, hz, hsz, hgone⟩ := hg.part (A := A) (k := k) hb hu hla
      obtain ⟨z', hz', hsz', hgone'⟩ := hg'.part (A := A') (k := k') hb hv hlb
      refine follows_ok hz hz' ⟨rfl, hsz.symm.trans (hs.trans hsz'), ?_⟩
      exact ⟨hgone, hgone'⟩
  | _ => exact htried (by simp) rfl

end

/-! ## Connections that hand on -/

section

variable {t z : Handle} {zs : List Handle} {l : Plain H.Pcb} {f : Option Segments} {o : Op} {name : String} {j : Nat}
  {α : Type} {x : Exec H α}

/-- Whoever asks while a layer runs has no part in deliveries. -/
theorem follows_held {post : α → World H → o.Reply → World H → Prop}
    (h : Follows x (attempt b (exec b j) (freeEntry b (exec b j) j) id o) w w' post)
    (ha : w'.stack.isAlive id = true) (hp : ∀ a u r v, post a u r v → (0 < v.stack.depth || v.stack.pumping) = true) :
    Follows x (exec b (j + 1) (.ask id o)) w w' post := by
  refine .of_eq rfl (exec_attempt j ha) (Follows.bind_right (h.mono fun a u r v hpost => ?_))
  exact ⟨r, v, bind_ok (pump_held (hp a u r v hpost)) _, hpost⟩

/-- What a connection that hands on has come to, in the world `w'`, when its layer has been asked `o`; below it are `zs`,
and lowest `t`, which was asked the same in `w`. When it was aborted, it is still there. -/
def Answered (o : Op) (t z : Handle) (zs : List Handle) (layer : Layer H) (f : Option Segments) (l : Plain H.Pcb)
    (w w' : World H) (r : o.Reply) (u : World H) (r' : Except Fault o.Reply) (v : World H) : Prop :=
  r' = .ok r ∧ Same u v ∧
    if o.ends r then Gone o t [] w.stack u.stack ∧
      if o = .abort then ∃ s, Gone o t zs (w'.stack.away z) s ∧ v.stack = s.back z layer
      else Gone o t (z :: zs) w'.stack v.stack
    else ∃ l₁ : Plain H.Pcb, (l.Drained → l₁.Drained) ∧ Kept o.tune t [] (l₁.loaded f) w.stack u.stack ∧
      Kept o.tune t zs l₁ w'.stack v.stack

section

variable {w : World H} {x : Exec H o.Reply} (hb : b.Logless) (he : w'.stack.find? z = some e)
  (hl : e.layer = some (.passthrough name)) (hi : e.inner = some (zs.headD t)) (hself : e.outer ≠ some z)
  (hout : w'.stack.outer? (zs.headD t) = some z) (hz : z ∉ zs ++ [t]) (ho : ∀ e, o ≠ .lower e)
include hb he hl hi hself hout hz ho

theorem withLayer_handsOn (hA : Follows x (A (.ask (zs.headD t) o)) w { w' with stack := w'.stack.away z }
      (Reached o t zs f l w { w' with stack := w'.stack.away z })) :
    Follows x (withLayer b A (freeEntry b A (k + 1)) z (.op o)) w w'
      (Answered o t z zs (.passthrough name) f l w w') := by
  have haway : (w'.stack.away z).find? z = some (bare e) := find?_away_self he
  have hinner : (w'.stack.away z).inner? z = some (zs.headD t) := inner?_eq_some.2 ⟨_, haway, hi⟩
  refine follows_withLayer he hl (.of_eq rfl (passthrough_op (w := { w' with stack := w'.stack.away z }) hinner ho)
    (Follows.bind_right (hA.mono ?_)))
  rintro a u r v ⟨rfl, hs, hlayers⟩
  refine ⟨_, v, rfl, ?_⟩
  cases hr : o.ends r with
  | false =>
    have hrel : o.releases r = false := by
      cases hc : o.releases r with
      | false => rfl
      | true => exact (ends_of_releases hc).symm.trans hr
    rw [hr, if_neg Bool.false_ne_true] at hlayers
    obtain ⟨l₁, hdrained, hu, hv⟩ := hlayers
    have hfind : v.stack.find? z = some (bare e) := by
      rw [List.mem_append, not_or, List.mem_singleton] at hz
      rw [hv.find?, if_neg hz.2, if_neg hz.1, haway]
    refine ⟨isAlive_iff.2 ⟨_, hfind⟩, { v with stack := v.stack.back z (.passthrough name) }, ?_, rfl,
      ⟨hs.net, hs.shared, hs.memory⟩, ?_⟩
    · rw [hrel]
      rfl
    · rw [hr, if_neg Bool.false_ne_true]
      exact ⟨l₁, hdrained, hu, hv.back hz he hl⟩
  | true =>
    rw [hr, if_pos rfl] at hlayers
    obtain ⟨hu, hv⟩ := hlayers
    have hlost : (v.stack.back z (.passthrough name)).find? z = _ := hv.without.above hout hz he hi
    have hfind : v.stack.isAlive z = true := by
      cases hc : v.stack.find? z with
      | some e' => exact isAlive_iff.2 ⟨e', hc⟩
      | none =>
        rw [find?_back, if_pos rfl, hc] at hlost
        cases hlost
    by_cases hab : o = .abort
    · subst hab
      exact ⟨hfind, { v with stack := v.stack.back z (.passthrough name) }, rfl, rfl,
        ⟨hs.net, hs.shared, hs.memory⟩, hu, v.stack, hv, rfl⟩
    · have hrel : o.releases r = true := (ends_eq_releases hab).symm.trans hr
      obtain ⟨v', hfree, hs', hwithout, hq⟩ := freeEntry_spent (w := { v with stack := v.stack.back z (.passthrough name) })
        (A := A) (k := k) hb hlost rfl (.passthrough name) rfl hself
      refine ⟨hfind, v', ?_, rfl, ⟨hs'.net.trans hs.net, hs'.shared.trans hs.shared, hs'.memory.trans hs.memory⟩, ?_⟩
      · rw [hrel]
        exact hfree
      · rw [hr, if_pos rfl, if_neg hab]
        obtain ⟨qs, hqs, hnil⟩ := hv.queue
        rw [if_neg hab] at hnil
        refine ⟨hu, .quiet hab (hv.without.stack hwithout hout hz he) ?_⟩
        rw [hq]
        refine hqs.trans ?_
        rw [hnil]
        exact List.append_nil _

/-- Such a connection is asked, but not to be aborted. -/
theorem tried_handsOn (hab : o ≠ .abort) (hA : Follows x (A (.ask (zs.headD t) o)) w { w' with stack := w'.stack.away z }
      (Reached o t zs f l w { w' with stack := w'.stack.away z })) :
    Follows x (tried b A (freeEntry b A (k + 1)) z o) w w' fun r u r' v => r' = r ∧ Same u v ∧
      if o.ends r then Gone o t [] w.stack u.stack ∧ Gone o t (z :: zs) w'.stack v.stack
      else ∃ l₁ : Plain H.Pcb, (l.Drained → l₁.Drained) ∧ Kept o.tune t [] (l₁.loaded f) w.stack u.stack ∧
        Kept o.tune t zs l₁ w'.stack v.stack := by
  refine Follows.bind_right ((withLayer_handsOn hb he hl hi hself hout hz ho hA).mono ?_)
  rintro a u _ v ⟨rfl, hs, hlayers⟩
  refine ⟨a, v, rfl, rfl, hs, ?_⟩
  rwa [if_neg hab] at hlayers

theorem attempt_handsOn (hA : ∀ w'' : World H, Same w' w'' → (∀ y ≠ z, w''.stack.find? y = w'.stack.find? y) →
      0 < w''.stack.depth → Follows x (A (.ask (zs.headD t) o)) w w'' (Reached o t zs f l w w'')) :
    Follows x (attempt b A (freeEntry b A (k + 1)) z o) w w' (Reached o t (z :: zs) f l w w') := by
  have halive : w'.stack.isAlive z = true := isAlive_iff.2 ⟨_, he⟩
  have hAaway : ∀ w₁ : World H, Same w' w₁ → (∀ y ≠ z, w₁.stack.find? y = w'.stack.find? y) →
      Follows x (A (.ask (zs.headD t) o)) w { w₁ with stack := w₁.stack.away z }
        (Reached o t zs f l w { w₁ with stack := w₁.stack.away z }) := by
    intro w₁ hs hy
    refine hA _ ⟨hs.net, hs.shared, hs.memory⟩ (fun y hne => ?_) (Nat.succ_pos _)
    refine find?_away.trans ?_
    rw [if_neg hne, hy y hne]
  have htried : o ≠ .abort → (o.tune : Entry H → Entry H) = (fun e => e) →
      Follows x (tried b A (freeEntry b A (k + 1)) z o) w w' (Reached o t (z :: zs) f l w w') := by
    intro hab htune
    refine (tried_handsOn hb he hl hi hself hout hz ho hab (hAaway w' (.refl _) fun _ _ => rfl)).mono ?_
    rintro r u r' v ⟨hr, hs, hlayers⟩
    refine ⟨hr, hs, ?_⟩
    split at hlayers
    · rename_i hends
      rw [if_pos hends]
      exact hlayers
    · rename_i hends
      obtain ⟨l₁, hdrained, hu, hv⟩ := hlayers
      rw [if_neg hends]
      rw [htune] at hu hv ⊢
      exact ⟨l₁, hdrained, hu, hv.widen _⟩
  cases o with
  | lower e => exact absurd rfl (ho e)
  | setPoll n =>
    have hset : (w'.stack.update z fun e => { e with pollInterval := n }).find? z = some { e with pollInterval := n } := by
      rw [find?_update, if_pos rfl, he]
      rfl
    have hne : zs.headD t ≠ z := by
      cases zs with
      | nil => exact fun hc => hz (by simp [← hc])
      | cons y zs => exact fun hc => hz (by simp [← hc])
    have hother : ∀ y ≠ z, (w'.stack.update z fun e => { e with pollInterval := n }).find? y = w'.stack.find? y :=
      fun y hy => find?_update_of_ne hy
    simp only [attempt]
    refine .of_eq rfl (bind_ok (getSlots_eq w') _) ?_
    rw [if_pos halive]
    refine .of_eq rfl (bind_ok (x := modifySlots _) rfl _) ((tried_handsOn (e := { e with pollInterval := n }) hb hset hl hi
      hself ?_ hz ho (by simp) (hAaway
        { w' with stack := w'.stack.update z fun e => { e with pollInterval := n } } ⟨rfl, rfl, rfl⟩ hother)).mono ?_)
    · show ((w'.stack.update z _).find? (zs.headD t)).bind _ = _
      rw [hother _ hne]
      exact hout
    · rintro r u r' v ⟨hr, hs, l₁, hdrained, hu, hv⟩
      exact ⟨hr, hs, l₁, hdrained, hu, hv.retune hz⟩
  | abort =>
    simp only [attempt, note_eq hb, pure_bind]
    refine .of_eq rfl (bind_ok (getSlots_eq w') _) ?_
    rw [if_pos halive]
    refine Follows.bind_right ((withLayer_handsOn hb he hl hi hself hout hz ho
      (hAaway w' (.refl _) fun _ _ => rfl)).mono ?_)
    rintro a u _ v ⟨rfl, hs, hu, s, hgone, hv⟩
    have hlost : v.stack.find? z = _ := hv ▸ hgone.without.above hout hz he hi
    obtain ⟨v', hpart, hs', hwithout, hq⟩ := part_spent (A := A) (k := k) hb hlost rfl (.passthrough name) rfl hself .aborted
    refine ⟨a, v', (bind_ok (getSlots_eq v) _).trans ?_, rfl,
      ⟨hs'.net.trans hs.net, hs'.shared.trans hs.shared, hs'.memory.trans hs.memory⟩, hu, ?_⟩
    · rw [if_pos (isAlive_iff.2 ⟨_, hlost⟩)]
      exact hpart
    · refine ⟨hgone.without.stack (hv ▸ hwithout) hout hz he, ?_⟩
      obtain ⟨qs, hqs, hparting⟩ := hgone.queue
      rw [if_pos rfl] at hparting
      refine ⟨qs ++ [⟨z, .error .aborted, e.farewell⟩], ?_, ?_⟩
      · rw [hq, hv]
        show s.queue ++ _ = _
        rw [hqs, List.append_assoc]
        rfl
      · rw [if_pos rfl]
        exact hparting.stack hout he
  | _ => exact htried (by simp) rfl

end

/-- **An operation on the uppermost of a pile does what it does to the lowest**, which may stand alone in another world. -/
theorem attempt_pile {w : World H} {e₀ e' : Entry H} {k' : Nat} (hb : b.Logless) (h : Same w w')
    (hg : Ground w.stack t (l.loaded f) e₀) (hg' : Ground w'.stack t l e') (hp : e'.pollInterval = e₀.pollInterval)
    (hf : f ≠ none → l.Drained) (ho : ∀ e, o ≠ .lower e) (hd : o ≠ .shutdown .both) {up : Option Handle}
    (hpile : w'.stack.Pile t up zs) (hn : (zs ++ [t]).Nodup) (hup : ∀ y ∈ zs ++ [t], up ≠ some y) (hk : zs.length < k') :
    Follows (attempt b A (freeEntry b A k) t o) (attempt b (exec b k') (freeEntry b (exec b k') k') (zs.headD t) o) w w'
      (Reached o t zs f l w w') := by
  obtain ⟨k', rfl⟩ := Nat.exists_eq_succ_of_ne_zero (Nat.ne_of_gt (Nat.zero_lt_of_lt hk))
  -- what is below the first connection is asked with one step less
  induction zs generalizing w' up k' with
  | nil => exact attempt_plain hb h hg hg' hp hf ho hd
  | cons z zs ih =>
    obtain ⟨⟨e, name, he, hl, hi, hout⟩, hbelow⟩ := hpile
    obtain ⟨hz, hn⟩ := List.nodup_cons.1 hn
    have hself : e.outer ≠ some z := hout ▸ hup z List.mem_cons_self
    have hne : ∀ y ∈ zs ++ [t], y ≠ z := fun y hy hc => hz (hc ▸ hy)
    refine attempt_handsOn hb he hl hi hself hbelow.outer_head hz ho fun w'' hs hother hdepth => ?_
    obtain ⟨k', rfl⟩ : ∃ m, k' = m + 1 := ⟨k' - 1, by simp at hk; omega⟩
    have hground : Ground w''.stack t l e' :=
      ⟨(hother t (hne t (by simp))).trans hg'.find?, hg'.layer, hg'.inner, hg'.outer⟩
    have hpile : w''.stack.Pile t (some z) zs := hbelow.congr (fun y hy => hother y (hne y (by simp [hy])))
      (congrArg (·.bind (·.outer)) (hother t (hne t (by simp))))
    refine follows_held (ih (h.trans hs) hground hpile hn ?_ k' (by simpa using hk)) ?_ ?_
    · rintro y hy hc
      exact hz (Option.some.inj hc ▸ hy)
    · exact hpile.isAlive_head (isAlive_iff.2 ⟨_, hground.find?⟩)
    · rintro a u r v ⟨-, -, hlayers⟩
      have hv : v.stack.depth = w''.stack.depth := by
        split at hlayers
        · exact hlayers.2.without.depth
        · obtain ⟨l₁, -, -, hv⟩ := hlayers
          exact hv.depth
      rw [hv, Bool.or_eq_true]
      exact .inl (decide_eq_true hdepth)

end

end Stack

end Conduit
