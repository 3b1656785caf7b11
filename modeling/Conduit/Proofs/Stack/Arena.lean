import Conduit.Proofs.Stack.Slots
import Mathlib.Data.List.Nodup
import Mathlib.Logic.Relation

/-!
# How slots are kept

What must hold of the slots whenever a layer or the application has its turn, and what a connection that comes or goes
does to it.

* `Slots.Counted`: the vacant slots are known, and the connections counted.
* `Slots.Linked`: two connections agree on which of them is above, and no connection is below itself.
* `Slots.release`: what is left when a connection has gone.
-/

namespace Conduit.Slots

variable {H : Host} {s s' : Slots H} {id x y : Handle} {e : Entry H} {f : Entry H → Entry H} {R : List Handle}
  {name : String} {layer : Layer H}

/-- Which slots have a tenant. -/
def occupied (s : Slots H) : List Bool := s.slots.toList.map (·.entry.isSome)

/-- The vacant slots are known, each once, and the connections are counted. -/
structure Counted (s : Slots H) : Prop where
  live : s.live = s.occupied.count true
  nodup : s.free.Nodup
  mem_free : ∀ i, i ∈ s.free ↔ s.occupied[i]? = some false

theorem occupied_getElem? (s : Slots H) (i : Nat) : s.occupied[i]? = (s.slots[i]?).map (·.entry.isSome) := by
  unfold occupied
  rw [List.getElem?_map, Array.getElem?_toList]

theorem occupied_of_find? (h : s.find? id = some e) : s.occupied[id.index]? = some true := by
  rw [occupied_getElem?]
  unfold find? at h
  split at h
  · rename_i slot hs
    split at h
    · rw [hs, Option.map_some, h]
      rfl
    · cases h
  · cases h

theorem occupied_update : (s.update id f).occupied = s.occupied := by
  refine List.ext_getElem? fun i => ?_
  rw [occupied_getElem?, occupied_getElem?]
  unfold update
  rw [Array.getElem?_modify]
  split
  · rw [Option.map_map]
    congr 1
    funext slot
    simp only [Function.comp]
    split
    · simp
    · rfl
  · rfl

theorem Counted.update (h : s.Counted) : (s.update id f).Counted :=
  ⟨by rw [occupied_update]; exact h.live, h.nodup, fun i => by rw [occupied_update]; exact h.mem_free i⟩

theorem Counted.of_same (h : s.Counted) (hslots : s'.slots = s.slots) (hfree : s'.free = s.free) (hlive : s'.live = s.live) :
    s'.Counted := by
  have hocc : s'.occupied = s.occupied := by
    unfold occupied
    rw [hslots]
  exact ⟨by rw [hlive, hocc, h.live], hfree ▸ h.nodup, fun i => by rw [hfree, hocc, h.mem_free]⟩

/-! ## A connection comes -/

theorem occupied_insert (h : s.Counted) :
    (s.insert name layer).occupied =
      if s.free = [] then s.occupied ++ [true] else s.occupied.set s.nextHandle.index true := by
  refine List.ext_getElem? fun i => ?_
  unfold insert nextHandle
  cases hf : s.free with
  | nil =>
    -- a new slot is added at the end
    rw [if_pos rfl, occupied_getElem?]
    simp only [Array.getElem?_push]
    unfold occupied
    rw [List.getElem?_append]
    simp only [List.length_map, Array.length_toList]
    by_cases hi : i < s.slots.size
    · rw [if_neg (by omega), if_pos hi, List.getElem?_map, Array.getElem?_toList]
    · rw [if_neg hi]
      by_cases hi' : i = s.slots.size
      · simp [hi']
      · have hlen : s.slots.size ≤ i := by omega
        have hpos : i - s.slots.size ≠ 0 := by omega
        rw [if_neg hi', Array.getElem?_eq_none hlen]
        simp [hpos]
  | cons j rest =>
    -- the slot that was vacated last is used again
    have hj : s.occupied[j]? = some false := (h.mem_free j).1 (by simp [hf])
    rw [if_neg (by simp), occupied_getElem?]
    simp only [Array.getElem?_modify, List.getElem?_set]
    split
    · rename_i hji
      subst hji
      have hlt : j < s.occupied.length := (List.getElem?_eq_some_iff.1 hj).1
      rw [occupied_getElem?] at hj
      cases hs : s.slots[j]? with
      | none => rw [hs] at hj; cases hj
      | some slot => simp [hlt]
    · rw [occupied_getElem?]

theorem Counted.insert (h : s.Counted) : (s.insert name layer).Counted := by
  have hocc : (s.insert name layer).occupied = _ := occupied_insert h
  cases hf : s.free with
  | nil =>
    rw [if_pos hf] at hocc
    have hlive : (s.insert name layer).live = s.live + 1 := by simp only [Slots.insert, hf]
    have hfree : (s.insert name layer).free = [] := by simp only [Slots.insert, hf]
    refine ⟨?_, by rw [hfree]; exact List.nodup_nil, fun i => ?_⟩
    · rw [hocc, hlive, h.live, List.count_append]
      rfl
    · have hnone : s.occupied[i]? ≠ some false := fun hi => by
        have := (h.mem_free i).2 hi
        rw [hf] at this
        cases this
      rw [hocc, hfree, List.getElem?_append]
      constructor
      · intro hi
        cases hi
      · intro hi
        split at hi
        · exact absurd hi hnone
        · rw [List.getElem?_singleton] at hi
          split at hi <;> cases hi
  | cons j rest =>
    rw [if_neg (by simp [hf])] at hocc
    have hnext : s.nextHandle.index = j := by simp only [nextHandle, hf]
    rw [hnext] at hocc
    have hlive : (s.insert name layer).live = s.live + 1 := by simp only [Slots.insert, hf]
    have hfree : (s.insert name layer).free = rest := by simp only [Slots.insert, hf]
    have hnodup := h.nodup
    rw [hf, List.nodup_cons] at hnodup
    have hj : s.occupied[j]? = some false := (h.mem_free j).1 (by simp [hf])
    obtain ⟨hlt, hval⟩ := List.getElem?_eq_some_iff.1 hj
    refine ⟨?_, by rw [hfree]; exact hnodup.2, fun i => ?_⟩
    · rw [hocc, hlive, h.live, List.count_set hlt, hval]
      rfl
    · rw [hocc, hfree, List.getElem?_set]
      by_cases hji : j = i
      · subst hji
        simp [hlt, hnodup.1]
      · rw [if_neg hji, ← h.mem_free i, hf, List.mem_cons]
        simp [Ne.symm hji]

/-- The next handle names nothing yet. -/
theorem find?_nextHandle (h : s.Counted) : s.find? s.nextHandle = none := by
  unfold nextHandle find?
  cases hf : s.free with
  | nil => simp
  | cons j rest =>
    have hj : s.occupied[j]? = some false := (h.mem_free j).1 (by simp [hf])
    rw [occupied_getElem?] at hj
    cases hs : s.slots[j]? with
    | none => simp
    | some slot =>
      rw [hs] at hj
      have hnone : slot.entry = none := by simpa using hj
      simp [hs, hnone]

theorem find?_insert (h : s.Counted) :
    (s.insert name layer).find? x = if x = s.nextHandle then some { layer := some layer, name } else s.find? x := by
  have hnext := find?_nextHandle h
  have hx : x = s.nextHandle ↔ x.index = s.nextHandle.index ∧ x.generation = s.nextHandle.generation := by
    cases x
    cases s.nextHandle
    simp
  simp only [hx]
  unfold find? at hnext ⊢
  unfold insert
  cases hf : s.free with
  | nil =>
    have hi : s.nextHandle = ⟨s.slots.size, 0⟩ := by simp only [nextHandle, hf]
    simp only [hi, Array.getElem?_push]
    by_cases hxi : x.index = s.slots.size
    · have hnone : s.slots[s.slots.size]? = none := Array.getElem?_eq_none (Nat.le_refl _)
      rw [if_pos hxi, hxi, hnone]
      by_cases hg : x.generation = 0
      · simp [hg]
      · simp [hg, Ne.symm hg]
    · rw [if_neg hxi, if_neg (fun hc => hxi hc.1)]
  | cons j rest =>
    have hj : s.occupied[j]? = some false := (h.mem_free j).1 (by simp [hf])
    rw [occupied_getElem?] at hj
    cases hs : s.slots[j]? with
    | none => rw [hs] at hj; cases hj
    | some slot =>
      have hi : s.nextHandle = ⟨j, slot.generation⟩ := by simp [nextHandle, hf, hs]
      rw [hs] at hj
      have hnone : slot.entry = none := by simpa using hj
      simp only [hi, Array.getElem?_modify]
      by_cases hxi : j = x.index
      · rw [if_pos hxi, ← hxi, hs]
        simp only [Option.map_some, hnone]
        by_cases hg : slot.generation = x.generation
        · simp [hg]
        · simp [hg, Ne.symm hg]
      · rw [if_neg hxi, if_neg (fun hc => hxi hc.1.symm)]

/-! ## A connection goes -/

theorem find?_vacate (h : s.find? id = some e) :
    (s.vacate id).find? x = if x = id then none else s.find? x := by
  have hslot : ∃ slot, s.slots[id.index]? = some slot ∧ slot.generation = id.generation := by
    unfold find? at h
    split at h
    · rename_i slot hs
      split at h
      · rename_i hg
        exact ⟨slot, hs, hg⟩
      · cases h
    · cases h
  obtain ⟨slot, hs, hg⟩ := hslot
  unfold vacate find?
  simp only [Array.getElem?_modify]
  by_cases hxi : id.index = x.index
  · rw [if_pos hxi, ← hxi, hs]
    simp only [Option.map_some, ite_self]
    by_cases hx : x = id
    · rw [if_pos hx]
    · -- another handle of this slot is of another generation, and named nothing before
      have hne : slot.generation ≠ x.generation := by
        intro hc
        apply hx
        cases x
        cases id
        simp_all
      rw [if_neg hx, if_neg hne]
  · have hx : x ≠ id := fun hc => hxi (by rw [hc])
    rw [if_neg hxi, if_neg hx]

theorem occupied_vacate (s : Slots H) (id : Handle) : (s.vacate id).occupied = s.occupied.set id.index false := by
  refine List.ext_getElem? fun i => ?_
  rw [occupied_getElem?]
  unfold vacate
  simp only [Array.getElem?_modify, List.getElem?_set]
  split
  · rename_i hi
    subst hi
    have hlen : s.occupied.length = s.slots.size := by simp [occupied]
    rw [hlen, Option.map_map]
    by_cases hlt : id.index < s.slots.size
    · simp [hlt]
    · simp [hlt]
  · rw [occupied_getElem?]

theorem Counted.vacate (h : s.Counted) (he : s.find? id = some e) : (s.vacate id).Counted := by
  have hocc := occupied_of_find? he
  obtain ⟨hlt, hval⟩ := List.getElem?_eq_some_iff.1 hocc
  refine ⟨?_, ?_, fun i => ?_⟩
  · rw [occupied_vacate, List.count_set hlt, hval]
    show s.live - 1 = _
    rw [h.live]
    rfl
  · refine List.nodup_cons.2 ⟨fun hm => ?_, h.nodup⟩
    rw [h.mem_free, hocc] at hm
    cases hm
  · rw [occupied_vacate, List.getElem?_set]
    show i ∈ id.index :: s.free ↔ _
    rw [List.mem_cons, h.mem_free]
    by_cases hi : id.index = i
    · subst hi
      simp [hlt]
    · simp [hi, Ne.symm hi]

/-! ## Links -/

/-- `y` is the connection below `x`. -/
def On (s : Slots H) (x y : Handle) : Prop := s.inner? x = some y

/-- `y` is `x` or further down. -/
def Below (s : Slots H) : Handle → Handle → Prop := Relation.ReflTransGen s.On

/-- Two connections agree on which of them is above, and none is below itself. -/
structure Linked (s : Slots H) : Prop extends Counted s where
  agree : ∀ x y, s.inner? x = some y ↔ s.outer? y = some x
  acyclic : ∀ x, ¬ Relation.TransGen s.On x x

theorem inner?_eq_some : s.inner? x = some y ↔ ∃ e, s.find? x = some e ∧ e.inner = some y :=
  Option.bind_eq_some_iff

theorem outer?_eq_some : s.outer? x = some y ↔ ∃ e, s.find? x = some e ∧ e.outer = some y :=
  Option.bind_eq_some_iff

theorem isAlive_iff : s.isAlive x = true ↔ ∃ e, s.find? x = some e := Option.isSome_iff_exists

theorem isAlive_eq_false : s.isAlive x = false ↔ s.find? x = none := by
  unfold isAlive
  rw [Option.isSome_eq_false_iff, Option.isNone_iff_eq_none]

theorem isAlive_update : (s.update id f).isAlive x = s.isAlive x := by
  unfold isAlive
  rw [find?_update]
  split
  · rename_i h
    rw [h, Option.isSome_map]
  · rfl

theorem inner?_update (hf : ∀ e, s.find? id = some e → (f e).inner = e.inner) :
    (s.update id f).inner? x = s.inner? x := by
  unfold inner?
  rw [find?_update]
  split
  · rename_i h
    subst h
    cases he : s.find? x with
    | none => rfl
    | some e => exact hf e he
  · rfl

theorem outer?_update (hf : ∀ e, s.find? id = some e → (f e).outer = e.outer) :
    (s.update id f).outer? x = s.outer? x := by
  unfold outer?
  rw [find?_update]
  split
  · rename_i h
    subst h
    cases he : s.find? x with
    | none => rfl
    | some e => exact hf e he
  · rfl

/-- Links that are the same, or fewer, are as good. -/
theorem Linked.of_links (h : s.Linked) (hc : s'.Counted) (hi : ∀ x, s'.inner? x = s.inner? x)
    (ho : ∀ x, s'.outer? x = s.outer? x) : s'.Linked := by
  have hon : s'.On = s.On := by
    funext x y
    exact congrArg (· = some y) (hi x)
  refine ⟨hc, fun x y => ?_, fun x => ?_⟩
  · rw [hi, ho]
    exact h.agree x y
  · rw [hon]
    exact h.acyclic x

theorem Linked.update (h : s.Linked) (hi : ∀ e, s.find? id = some e → (f e).inner = e.inner)
    (ho : ∀ e, s.find? id = some e → (f e).outer = e.outer) : (s.update id f).Linked :=
  h.of_links h.toCounted.update (fun _ => inner?_update hi) fun _ => outer?_update ho

theorem Linked.insert (h : s.Linked) : (s.insert name layer).Linked := by
  have hnext := find?_nextHandle h.toCounted
  refine h.of_links h.toCounted.insert (fun x => ?_) fun x => ?_
  · unfold inner?
    rw [find?_insert h.toCounted]
    split
    · rename_i hx
      rw [hx, hnext]
      rfl
    · rfl
  · unfold outer?
    rw [find?_insert h.toCounted]
    split
    · rename_i hx
      rw [hx, hnext]
      rfl
    · rfl

/-- A connection that stands on nothing, and on which nothing stands, is put above one that has none above it. -/
theorem Linked.link (h : s.Linked) {i o : Entry H} (hx : s.find? x = some i) (hxo : i.outer = none)
    (hy : s.find? y = some o) (hyi : o.inner = none) (hyo : o.outer = none) (hne : x ≠ y) : (s.link x y).Linked := by
  have hinner : ∀ z, (s.link x y).inner? z = if z = y then some x else s.inner? z := by
    intro z
    refine Eq.trans (inner?_update fun _ _ => rfl) ?_
    unfold inner?
    rw [find?_update]
    split
    · rw [hy]
      rfl
    · rfl
  have houter : ∀ z, (s.link x y).outer? z = if z = x then some y else s.outer? z := by
    intro z
    unfold Slots.link outer?
    rw [find?_update]
    split
    · rw [find?_update_of_ne hne, hx]
      rfl
    · show (Slots.update _ _ _).outer? z = _
      exact outer?_update fun _ _ => rfl
  have hx0 : s.outer? x = none := by
    unfold outer?
    rw [hx]
    exact hxo
  have hy0 : s.inner? y = none := by
    unfold inner?
    rw [hy]
    exact hyi
  have htop : ∀ z, s.inner? z ≠ some y := by
    intro z hz
    rw [h.agree] at hz
    unfold outer? at hz
    rw [hy] at hz
    rw [Option.bind_some, hyo] at hz
    cases hz
  refine ⟨h.toCounted.update.update, fun a c => ?_, fun a hcycle => ?_⟩
  · rw [hinner, houter]
    by_cases ha : a = y
    · by_cases hc : c = x
      · simp [ha, hc]
      · have hcy : s.outer? c ≠ some y := fun hcy => by
          rw [← h.agree, hy0] at hcy
          cases hcy
        simp [ha, hc, hcy, Ne.symm hc]
    · by_cases hc : c = x
      · have hax : s.inner? a ≠ some x := fun hax => by
          rw [h.agree, hx0] at hax
          cases hax
        simp [ha, hc, hax, Ne.symm ha]
      · rw [if_neg ha, if_neg hc]
        exact h.agree a c
  · -- nothing stands on `y`, so no cycle goes through the new link
    have hon : ∀ {a c}, (s.link x y).On a c → c ≠ y ∧ (a = y ∨ s.On a c) := by
      intro a c hac
      unfold On at hac ⊢
      rw [hinner] at hac
      split at hac
      · rename_i ha
        cases hac
        exact ⟨hne, .inl ha⟩
      · refine ⟨fun hc => htop a ?_, .inr hac⟩
        rw [← hc]
        exact hac
    have hlast : ∀ {a c}, Relation.TransGen (s.link x y).On a c → c ≠ y ∧ (a ≠ y → Relation.TransGen s.On a c) := by
      intro a c hac
      induction hac with
      | single hac =>
        obtain ⟨hc, hor⟩ := hon hac
        exact ⟨hc, fun ha => .single (hor.resolve_left ha)⟩
      | tail _ hac ih =>
        obtain ⟨hc, hor⟩ := hon hac
        exact ⟨hc, fun ha => (ih.2 ha).tail (hor.resolve_left ih.1)⟩
    obtain ⟨hay, hold⟩ := hlast hcycle
    exact h.acyclic a (hold hay)

/-! ## What a connection leaves behind -/

/-- A connection that has lost the one above it, and what the application had registered. -/
def orphan (e : Entry H) : Entry H := { e with outer := none, callbacks := {}, epoch := nextGeneration e.epoch }

/-- The connection above, if any, lets go of `id`. -/
def letGo (s : Slots H) (id : Handle) : Option Handle → Slots H
  | none => s
  | some outer => s.update outer fun o => if o.inner = some id then { o with inner := none } else o

/-- The connection below, if any, has lost `id`. -/
def bereave (s : Slots H) (id : Handle) : Option Handle → Slots H
  | none => s
  | some inner =>
    if s.outer? inner = some id then (s.update inner fun i => { i with outer := none }).clearCallbacks inner else s

/-- The slots once a connection is taken out, and its neighbours have let go of it. -/
def release (s : Slots H) (id : Handle) (e : Entry H) : Slots H := ((s.vacate id).letGo id e.outer).bereave id e.inner

/-- A connection stands neither on itself nor on what stands on it. -/
theorem Linked.neighbours (h : s.Linked) (he : s.find? id = some e) :
    e.outer ≠ some id ∧ e.inner ≠ some id ∧ ∀ x, e.outer = some x → e.inner ≠ some x := by
  have hup : ∀ x, e.outer = some x → s.On x id := fun x hx => (h.agree x id).2 (outer?_eq_some.2 ⟨e, he, hx⟩)
  have hdown : ∀ x, e.inner = some x → s.On id x := fun x hx => inner?_eq_some.2 ⟨e, he, hx⟩
  refine ⟨fun ho => ?_, fun hi => ?_, fun x ho hi => ?_⟩
  · exact h.acyclic id (.single (hup id ho))
  · exact h.acyclic id (.single (hdown id hi))
  · exact h.acyclic id ((Relation.TransGen.single (hdown x hi)).tail (hup x ho))

/-- The connection above has let go; the one below still refers to what it stood below. -/
theorem Linked.find?_letGo (h : s.Linked) (he : s.find? id = some e) :
    ((s.vacate id).letGo id e.outer).find? x =
      if x = id then none
      else if e.outer = some x then (s.find? x).map fun o => { o with inner := none }
      else s.find? x := by
  have hvacate : ∀ z, (s.vacate id).find? z = if z = id then none else s.find? z := fun z => find?_vacate he
  cases ho : e.outer with
  | none => simp only [letGo, hvacate, reduceCtorEq, if_false]
  | some o =>
    have hoi : o ≠ id := fun hc => (h.neighbours he).1 (by rw [ho, hc])
    obtain ⟨oe, hoe, hoin⟩ := inner?_eq_some.1 ((h.agree o id).2 (outer?_eq_some.2 ⟨e, he, ho⟩))
    simp only [letGo, find?_update, hvacate, Option.some.injEq]
    by_cases hx : x = o
    · subst hx
      rw [if_pos rfl, if_neg hoi, if_neg hoi, if_pos rfl, hoe]
      simp only [Option.map_some, hoin, if_true]
    · rw [if_neg hx, if_neg (Ne.symm hx)]

theorem Linked.find?_below (h : s.Linked) (he : s.find? id = some e) {i : Handle} (hi : e.inner = some i) :
    i ≠ id ∧ e.outer ≠ some i ∧ ((s.vacate id).letGo id e.outer).find? i = s.find? i ∧ s.outer? i = some id := by
  obtain ⟨-, hinner, hapart⟩ := h.neighbours he
  have hii : i ≠ id := fun hc => hinner (by rw [hi, hc])
  have hoi : e.outer ≠ some i := fun hc => hapart i hc hi
  refine ⟨hii, hoi, ?_, (h.agree id i).1 (inner?_eq_some.2 ⟨e, he, hi⟩)⟩
  rw [h.find?_letGo he, if_neg hii, if_neg hoi]

theorem Linked.outer?_letGo (h : s.Linked) (he : s.find? id = some e) {i : Handle} (hi : e.inner = some i) :
    ((s.vacate id).letGo id e.outer).outer? i = some id := by
  obtain ⟨-, -, hfound, hout⟩ := h.find?_below he hi
  unfold outer? at hout ⊢
  rw [hfound]
  exact hout

theorem Linked.find?_release (h : s.Linked) (he : s.find? id = some e) :
    (s.release id e).find? x =
      if x = id then none
      else if e.outer = some x then (s.find? x).map fun o => { o with inner := none }
      else if e.inner = some x then (s.find? x).map orphan
      else s.find? x := by
  unfold release
  cases hi : e.inner with
  | none =>
    simp only [bereave, reduceCtorEq, if_false]
    exact h.find?_letGo he
  | some i =>
    obtain ⟨hii, hoi, hfound, -⟩ := h.find?_below he hi
    simp only [bereave, h.outer?_letGo he hi, if_true]
    unfold clearCallbacks
    rw [find?_update, find?_update_self, find?_update, hfound, h.find?_letGo he]
    simp only [Option.some.injEq]
    by_cases hx : x = i
    · subst hx
      rw [if_pos rfl, if_neg hii, if_neg hoi, if_pos rfl, Option.map_map]
      rfl
    · rw [if_neg hx, if_neg hx, if_neg (Ne.symm hx)]

theorem Linked.inner?_release (h : s.Linked) (he : s.find? id = some e) :
    (s.release id e).inner? x = if x = id ∨ e.outer = some x then none else s.inner? x := by
  unfold inner?
  rw [h.find?_release he]
  by_cases hx : x = id
  · simp [hx]
  · by_cases ho : e.outer = some x
    · simp only [hx, ho, if_true, if_false, or_true]
      cases s.find? x <;> rfl
    · simp only [hx, ho, if_false, or_self]
      split
      · cases s.find? x <;> rfl
      · rfl

theorem Linked.outer?_release (h : s.Linked) (he : s.find? id = some e) :
    (s.release id e).outer? x = if x = id ∨ e.inner = some x then none else s.outer? x := by
  obtain ⟨-, -, hapart⟩ := h.neighbours he
  unfold outer?
  rw [h.find?_release he]
  by_cases hx : x = id
  · simp [hx]
  · by_cases ho : e.outer = some x
    · simp only [hx, ho, hapart x ho, if_true, if_false, or_self]
      cases s.find? x <;> rfl
    · simp only [hx, ho, if_false, false_or]
      split
      · cases s.find? x <;> rfl
      · rfl

theorem Counted.letGo (h : s.Counted) (o : Option Handle) : (s.letGo id o).Counted := by
  cases o with
  | none => exact h
  | some o => exact h.update

theorem Counted.bereave (h : s.Counted) (i : Option Handle) : (s.bereave id i).Counted := by
  cases i with
  | none => exact h
  | some i =>
    simp only [Slots.bereave]
    split
    · exact h.update.update
    · exact h

/-- The links that are left agree. -/
theorem Linked.release (h : s.Linked) (he : s.find? id = some e) : (s.release id e).Linked := by
  -- only the two neighbours refer to `id`, and both have let go
  have hup : ∀ x, s.inner? x = some id ↔ e.outer = some x := by
    intro x
    rw [h.agree]
    unfold outer?
    rw [he, Option.bind_some]
  have hdown : ∀ y, s.outer? y = some id ↔ e.inner = some y := by
    intro y
    rw [← h.agree]
    unfold inner?
    rw [he, Option.bind_some]
  refine ⟨((h.toCounted.vacate he).letGo _).bereave _, fun x y => ?_, fun x hcycle => ?_⟩
  · rw [h.inner?_release he, h.outer?_release he]
    have hagree := h.agree x y
    have hx := hdown y
    have hy := hup x
    constructor
    · intro hxy
      split at hxy
      · cases hxy
      · rename_i hn
        have hxy' := hagree.1 hxy
        rw [if_neg]
        · exact hxy'
        · rintro (rfl | hi)
          · exact hn (.inr (hy.1 hxy))
          · rw [hx.2 hi] at hxy'
            exact hn (.inl (Option.some.inj hxy').symm)
    · intro hxy
      split at hxy
      · cases hxy
      · rename_i hn
        have hxy' := hagree.2 hxy
        rw [if_neg]
        · exact hxy'
        · rintro (rfl | ho)
          · exact hn (.inr (hx.1 hxy))
          · rw [hy.2 ho] at hxy'
            exact hn (.inl (Option.some.inj hxy').symm)
  · -- there are fewer links than before
    refine h.acyclic x (Relation.TransGen.mono (fun a c hac => ?_) x x hcycle)
    unfold On at hac ⊢
    rw [h.inner?_release he] at hac
    split at hac
    · cases hac
    · exact hac

end Conduit.Slots
