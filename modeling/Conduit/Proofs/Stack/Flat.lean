import Conduit.Proofs.Loopback.Standstill
import Conduit.Proofs.Stack.Acknowledged

/-!
# Plain connections only

Where all connections are plain ones, the methods of their layers are simple: they ask their endpoints, and offer what they
hold. What an event of the engine leads to, a verdict, and the end of a connection, each leaves a few events to be
delivered, and the net no more work than there was, or one more end to be told.

* `Slots.Flat`, `Slots.Calm`: all connections are plain ones, and no layer is running.
* `PcbOp.Costs`: how much work an operation leaves to the net.
* `Stack.Laden`: the events of a connection that wait.
* `Stack.withLayer_comes`, `Stack.freeEntry_comes`: a method runs, and a connection goes.
* `Stack.lowered_comes`, `Stack.settled_comes`, `Stack.ended_comes`: **what the events of an engine and the verdicts on them
  come to.**
-/

namespace Conduit

open Exec Slots Loopback

variable {H : Host} {b : Behaviour H} {w w' w'' : World H} {x : Handle} {e : Entry H} {l : Plain H.Pcb}

/-! ## Plain connections -/

/-- A connection apart from what the application has set. -/
def Entry.frame (e : Entry H) : Option (Layer H) × Option Handle × Option Handle := (e.layer, e.inner, e.outer)

namespace Slots

variable {s s' s'' : Slots H} {f : Entry H → Entry H} {q : List (Queued H)}

/-- All connections are plain ones, with their layers in their places, and none is above another. -/
def AllPlain (s : Slots H) : Prop :=
  ∀ x e, s.find? x = some e → (∃ l, e.layer = some (.plain l)) ∧ e.inner = none ∧ e.outer = none

/-- The slots are kept as they should be, and all connections are plain ones. -/
structure Flat (s : Slots H) : Prop where
  counted : s.Counted
  plain : s.AllPlain

/-- Nothing has changed but what the application has set. -/
structure Framed (s s' : Slots H) : Prop where
  counted : s.Counted → s'.Counted
  frame : ∀ x, (s'.find? x).map Entry.frame = (s.find? x).map Entry.frame
  depth : s'.depth = s.depth
  pumping : s'.pumping = s.pumping
  queue : s'.queue = s.queue

theorem Framed.refl (s : Slots H) : s.Framed s := ⟨id, fun _ => rfl, rfl, rfl, rfl⟩

theorem Framed.trans (h : s.Framed s') (h' : s'.Framed s'') : s.Framed s'' :=
  ⟨fun hs => h'.counted (h.counted hs), fun x => (h'.frame x).trans (h.frame x), h'.depth.trans h.depth,
    h'.pumping.trans h.pumping, h'.queue.trans h.queue⟩

theorem framed_update (hf : ∀ e, (f e).frame = e.frame) : s.Framed (s.update x f) := by
  refine ⟨Counted.update, fun y => ?_, rfl, rfl, rfl⟩
  rw [find?_update]
  split
  · rename_i hy
    subst hy
    cases s.find? y with
    | none => rfl
    | some e => exact congrArg some (hf e)
  · rfl

/-- What is found afterwards was there before. -/
theorem Framed.of_find (h : s.Framed s') {e' : Entry H} (he' : s'.find? x = some e') :
    ∃ e, s.find? x = some e ∧ e.layer = e'.layer ∧ e.inner = e'.inner ∧ e.outer = e'.outer := by
  have hframe := h.frame x
  rw [he'] at hframe
  obtain ⟨e, he, hf⟩ := Option.map_eq_some_iff.1 hframe.symm
  exact ⟨e, he, congrArg Prod.fst hf, congrArg (·.2.1) hf, congrArg (·.2.2) hf⟩

theorem Framed.flat (h : s.Framed s') (hs : s.Flat) : s'.Flat := by
  refine ⟨h.counted hs.counted, fun x e' he' => ?_⟩
  obtain ⟨e, he, hlayer, hinner, houter⟩ := h.of_find he'
  obtain ⟨⟨l, hl⟩, hi, ho⟩ := hs.plain x e he
  exact ⟨⟨l, hlayer ▸ hl⟩, hinner ▸ hi, houter ▸ ho⟩

/-- A connection has another plain layer. -/
theorem Flat.layer (hs : s.Flat) (l : Plain H.Pcb) : (s.update x fun e => { e with layer := some (.plain l) }).Flat := by
  refine ⟨hs.counted.update, fun y e he => ?_⟩
  rw [find?_update] at he
  split at he
  · obtain ⟨e₀, he₀, rfl⟩ := Option.map_eq_some_iff.1 he
    obtain ⟨-, hi, ho⟩ := hs.plain x e₀ he₀
    exact ⟨⟨l, rfl⟩, hi, ho⟩
  · exact hs.plain y e he

/-- The counters change, or the events that wait. -/
theorem Flat.of_same (hs : s.Flat) (hslots : s'.slots = s.slots) (hfree : s'.free = s.free) (hlive : s'.live = s.live) :
    s'.Flat :=
  ⟨hs.counted.of_same hslots hfree hlive, fun x e he => hs.plain x e ((find?_congr hslots).symm.trans he)⟩

theorem Flat.insert (hs : s.Flat) (name : String) (l : Plain H.Pcb) : (s.insert name (.plain l)).Flat := by
  refine ⟨hs.counted.insert, fun x e he => ?_⟩
  rw [find?_insert hs.counted] at he
  split at he
  · cases he
    exact ⟨⟨l, rfl⟩, rfl, rfl⟩
  · exact hs.plain x e he

theorem Flat.vacate (hs : s.Flat) (hx : s.find? x = some e) : (s.vacate x).Flat := by
  refine ⟨hs.counted.vacate hx, fun y e' he' => ?_⟩
  rw [find?_vacate hx] at he'
  split at he'
  · cases he'
  · exact hs.plain y e' he'

theorem vacate_update : (s.update x f).vacate x = s.vacate x := by
  unfold vacate update
  congr 1
  refine Array.ext_getElem? fun i => ?_
  simp only [Array.getElem?_modify]
  split
  · cases s.slots[i]? <;> rfl
  · rfl

/-- No layer is running, and these events wait; `p` tells whether they are being delivered. -/
structure Calm (p : Bool) (q : List (Queued H)) (s : Slots H) : Prop extends Flat s where
  depth : s.depth = 0
  pumping : s.pumping = p
  queue : s.queue = q

variable {p : Bool}

theorem Calm.framed (hs : s.Calm p q) (h : s.Framed s') : s'.Calm p q :=
  ⟨h.flat hs.toFlat, h.depth.trans hs.depth, h.pumping.trans hs.pumping, h.queue.trans hs.queue⟩

/-- The first event is taken. -/
theorem Calm.rest {item : Queued H} (hs : s.Calm p (item :: q)) : ({ s with queue := q } : Slots H).Calm p q :=
  ⟨hs.toFlat.of_same rfl rfl rfl, hs.depth, hs.pumping, rfl⟩

/-- Events begin or cease to be delivered. -/
theorem Calm.pumps (hs : s.Calm p q) (p' : Bool) : ({ s with pumping := p' } : Slots H).Calm p' q :=
  ⟨hs.toFlat.of_same rfl rfl rfl, hs.depth, rfl, hs.queue⟩

/-- All that a connection holds is out for a verdict. -/
def OutWhole (s : Slots H) (x : Handle) : Prop :=
  ∀ e l, s.find? x = some e → e.layer = some (.plain l) → l.inFlight = some l.rx.size

theorem Framed.outWhole (h : s.Framed s') (hx : s.OutWhole x) : s'.OutWhole x := by
  intro e' l he' hl
  obtain ⟨e, he, hlayer, -⟩ := h.of_find he'
  exact hx e l he (hlayer.trans hl)

/-- A connection that is there is a plain one. -/
theorem Flat.found (hs : s.Flat) (h : s.isAlive x = true) :
    ∃ e l, s.find? x = some e ∧ e.layer = some (.plain l) ∧ e.inner = none ∧ e.outer = none := by
  obtain ⟨e, he⟩ := isAlive_iff.1 h
  obtain ⟨⟨l, hl⟩, hi, ho⟩ := hs.plain x e he
  exact ⟨e, l, he, hl, hi, ho⟩

end Slots

/-! ## Endpoints -/

/-- An operation that leaves the net at most `d` more work, and halts only over an amount that no counter can hold. -/
structure PcbOp.Costs (o : PcbOp) (d : Nat) : Prop where
  work : ∀ (n : Net) i r, n.perform i o = .ok r → r.net.work ≤ n.work + d
  halts : ∀ (n : Net) i e, n.perform i o = .error e → e = .overflow

theorem PcbOp.Costs.recved (len : Nat) : (PcbOp.recved len).Costs 0 := by
  have hperform : ∀ (n : Net) i, n.perform i (.recved len) = (n.recved i len).map fun n => ⟨n, [], ()⟩ := fun _ _ => rfl
  refine ⟨fun n i r h => ?_, fun n i e h => ?_⟩
  · rw [hperform] at h
    cases hr : n.recved i len with
    | error e =>
      rw [hr] at h
      cases h
    | ok n' =>
      rw [hr] at h
      cases h
      exact Net.work_recved hr
  · rw [hperform] at h
    unfold Net.recved at h
    split at h
    · cases h
      rfl
    · cases h

theorem PcbOp.Costs.attach (id : Handle) : (PcbOp.attach id).Costs 0 := by
  refine ⟨fun n i r h => ?_, fun n i e h => by cases h⟩
  cases h
  refine Net.work_update_le fun p => ?_
  split
  · exact Nat.le_refl _
  · exact Nat.le_refl _

theorem PcbOp.Costs.detach : PcbOp.detach.Costs 0 := by
  refine ⟨fun n i r h => ?_, fun n i e h => by cases h⟩
  cases h
  exact Net.work_update_le fun _ => Nat.le_refl _

theorem PcbOp.Costs.abort : PcbOp.abort.Costs 1 := by
  refine ⟨fun n i r h => ?_, fun n i e h => by cases h⟩
  cases h
  exact Net.work_abort n i

namespace Stack

/-- The only halt there may be: an amount that no counter can hold. -/
abbrev Overflows : Halt → World H → Prop := fun e _ => e = .overflow

/-- The events `q` are left to be delivered, and at most `d` more work is left to the net. -/
structure Adds (q : List (Queued H)) (d : Nat) (w w' : World H) : Prop where
  stack : w'.stack = { w.stack with queue := w.stack.queue ++ q }
  work : w'.net.work ≤ w.net.work + d

variable {q q' : List (Queued H)} {d d' : Nat}

theorem Adds.of_eq (hs : w'.stack = w.stack) (hw : w'.net.work ≤ w.net.work + d) : Adds [] d w w' :=
  ⟨by rw [hs, List.append_nil], hw⟩

theorem Adds.trans (h : Adds q d w w') (h' : Adds q' d' w' w'') : Adds (q ++ q') (d + d') w w'' := by
  refine ⟨?_, ?_⟩
  · rw [h'.stack, h.stack, List.append_assoc]
  · have := h.work
    have := h'.work
    omega

theorem performPcb_comes {o : PcbOp} (ho : o.Costs d) (p : PcbRef H.Pcb) :
    Comes (performPcb b p o) w Overflows fun _ w' => Adds [] d w w' := by
  unfold performPcb
  cases p with
  | loopback i =>
    dsimp only
    rw [comes_bind, comes_get]
    split
    · rename_i e he
      exact (comes_throw e).2 (ho.halts w.net i e he)
    · rename_i r hr
      rw [comes_bind, comes_modify, comes_bind]
      exact comes_notes _ fun m => (comes_pure _).2 (.of_eq rfl (ho.work w.net i r hr))
  | external p =>
    simp only [comes_bind, comes_get, comes_modify, comes_pure]
    exact .of_eq rfl (Nat.le_add_right _ _)

/-! ## Plain layers -/

/-- An event that asks for nothing but to be told. -/
inductive Light : Queued H → Prop
  | told (source : Handle) (event : Event) (ha : ∀ new, event ≠ .accept new) (hr : ∀ data, event ≠ .recv data) :
    Light ⟨source, event, .resolve⟩
  | ended (source : Handle) (event : Event) (code : Option H.Code) : Light ⟨source, event, .sink code⟩

/-- Events of a connection that wait: at most the first of them asks for a reply. When it is data, `whole` says that it is all
that is held; when it is a connection that was accepted, the net may be left more work. -/
inductive Laden (me : Handle) (whole : Prop) : Nat → List (Queued H) → Prop
  | light {d : Nat} {rest : List (Queued H)} (h : ∀ item ∈ rest, Light item) : Laden me whole d rest
  | data {d : Nat} {data : Bytes} {rest : List (Queued H)} (hw : whole) (h : ∀ item ∈ rest, Light item) :
    Laden me whole d (⟨me, .recv data, .resolve⟩ :: rest)
  | newcomer {d : Nat} {new : Handle} {rest : List (Queued H)} (h : ∀ item ∈ rest, Light item) :
    Laden me whole (d + 1) (⟨me, .accept new, .resolve⟩ :: rest)

theorem Laden.imp {me : Handle} {whole whole' : Prop} (h : Laden me whole d q) (hw : whole → whole') : Laden me whole' d q := by
  cases h with
  | light h => exact .light h
  | data h hq => exact .data (hw h) hq
  | newcomer h => exact .newcomer h

section

variable {A : Answers H} {me : Handle} {flag : Bool}

theorem emit_comes {σ : Type} {l : σ} (e : Event) {post : (Unit × σ) × Bool → World H → Prop} :
    Comes ((((Layer.Act.emit e : Layer.Act H σ Unit).run l).run (answerLayer b A me)).run flag) w Overflows post ↔
      post (((), l), flag) { w with stack := w.stack.enqueue me e } :=
  (comes_act_request _).trans ((comes_run_lift _).trans (comes_modifySlots _))

theorem act_note_comes {σ : Type} {l : σ} (n : Note) {post : (Unit × σ) × Bool → World H → Prop} :
    Comes ((((Layer.Act.note n : Layer.Act H σ Unit).run l).run (answerLayer b A me)).run flag) w Overflows post ↔
      post (((), l), flag) { w with memory := b.note n w.memory } :=
  (comes_act_request _).trans ((comes_run_lift _).trans (comes_note _))

theorem act_pcb_comes {σ : Type} {l : σ} {o : PcbOp} (ho : o.Costs d) (p : PcbRef H.Pcb) :
    Comes ((((Layer.Act.pcb p o : Layer.Act H σ o.Reply).run l).run (answerLayer b A me)).run flag) w Overflows
      fun r w' => r.1.2 = l ∧ r.2 = flag ∧ Adds [] d w w' :=
  (comes_act_request _).2 ((comes_run_lift _).2 ((performPcb_comes ho p).mono fun _ _ h => ⟨rfl, rfl, h⟩))

theorem withPcb_comes {o : PcbOp} (ho : o.Costs d) (absent : o.Reply) :
    Comes ((((Plain.withPcb o absent : Plain.Act H o.Reply).run l).run (answerLayer b A me)).run flag) w Overflows
      fun r w' => r.1.2 = l ∧ r.2 = flag ∧ Adds [] d w w' := by
  unfold Plain.withPcb
  rw [comes_act_bind, comes_act_get]
  dsimp only
  split
  · exact act_pcb_comes ho _
  · exact (comes_act_pure _).2 ⟨rfl, rfl, .of_eq rfl (Nat.le_add_right _ _)⟩

/-- What a plain layer offers: nothing, all that it holds, or the end of the stream. -/
inductive Offers (me : Handle) (l : Plain H.Pcb) : Plain H.Pcb → List (Queued H) → Prop
  | nothing (l' : Plain H.Pcb) : Offers me l l' []
  | data (h : 0 < l.rx.size) :
      Offers me l { l with inFlight := some l.rx.size } [⟨me, .recv l.rx.toList, .resolve⟩]
  | eof (l' : Plain H.Pcb) : Offers me l l' [⟨me, .eof, .resolve⟩]

theorem light_nil : ∀ item ∈ ([] : List (Queued H)), Light item := fun _ h => absurd h List.not_mem_nil

theorem light_single {item : Queued H} (h : Light item) : ∀ i ∈ [item], Light i := fun _ hi => List.mem_singleton.1 hi ▸ h

theorem Offers.length {l' : Plain H.Pcb} (h : Offers me l l' q) : q.length ≤ 1 := by
  cases h <;> simp

/-- What is offered is all that is held. -/
theorem Offers.laden {l' : Plain H.Pcb} (h : Offers me l l' q) (hq : ∀ item ∈ q', Light item) :
    Laden me (l'.inFlight = some l'.rx.size) d (q ++ q') := by
  cases h with
  | nothing => exact .light hq
  | data h => exact .data rfl hq
  | eof => exact .light fun item hi => (List.mem_cons.1 hi).elim (fun h => h ▸ .told _ _ nofun nofun) (hq item)

theorem offer_comes (l : Plain H.Pcb) :
    Comes ((((Plain.offer me : Plain.Act H Unit).run l).run (answerLayer b A me)).run flag) w Overflows
      fun r w' => r.2 = flag ∧ ∃ q, Adds q 0 w w' ∧ Offers me l r.1.2 q := by
  unfold Plain.offer
  rw [comes_act_bind, comes_act_get]
  dsimp only
  split
  · exact (comes_act_pure _).2 ⟨rfl, [], .of_eq rfl (Nat.le_refl _), .nothing _⟩
  · split
    · split
      · -- the read half is shut
        rw [comes_act_bind, comes_act_set, comes_act_bind]
        refine (withPcb_comes (.recved _) ()).mono fun r w' h => ?_
        exact (act_note_comes _).2 ⟨h.2.1, [], ⟨h.2.2.stack, h.2.2.work⟩, .nothing _⟩
      · exact (comes_act_pure _).2 ⟨rfl, [], .of_eq rfl (Nat.le_refl _), .nothing _⟩
    · split
      · rename_i hrx
        rw [comes_act_bind, comes_act_set, emit_comes, enqueue_event rfl]
        have hpos : 0 < l.rx.size := by
          unfold Segments.isEmpty at hrx
          simp only [Bool.not_eq_true', beq_eq_false_iff_ne] at hrx
          exact Nat.pos_of_ne_zero hrx
        exact ⟨rfl, _, ⟨rfl, Nat.le_refl _⟩, .data hpos⟩
      · split
        · rw [comes_act_bind, comes_act_set, emit_comes, enqueue_event rfl]
          exact ⟨rfl, _, ⟨rfl, Nat.le_refl _⟩, .eof _⟩
        · exact (comes_act_pure _).2 ⟨rfl, [], .of_eq rfl (Nat.le_refl _), .nothing _⟩

/-- An event of the engine. -/
theorem lower_comes (l : Plain H.Pcb) {event : Event} (he : event.isError = false) :
    Comes ((((Plain.lower me event : Plain.Act H Unit).run l).run (answerLayer b A me)).run flag) w Overflows
      fun r w' => r.2 = flag ∧ ∃ q, q.length ≤ 2 ∧ Adds q 0 w w' ∧
        Laden me (r.1.2.inFlight = some r.1.2.rx.size) event.toll q := by
  have hemit : ∀ e : Event, e.isError = false →
      (∀ whole : Prop, Laden (H := H) me whole e.toll [⟨me, e, .resolve⟩]) →
      Comes ((((Layer.Act.emit e : Plain.Act H Unit).run l).run (answerLayer b A me)).run flag) w Overflows
        fun r w' => r.2 = flag ∧ ∃ q, q.length ≤ 2 ∧ Adds q 0 w w' ∧
          Laden me (r.1.2.inFlight = some r.1.2.rx.size) e.toll q := fun e he hl => by
    rw [emit_comes, enqueue_event he]
    exact ⟨rfl, _, by simp, ⟨rfl, Nat.le_refl _⟩, hl _⟩
  cases event with
  | error reason => cases he
  | accept new => exact hemit _ rfl fun _ => .newcomer light_nil
  | connected r => exact hemit _ rfl fun _ => .light (light_single (.told _ _ nofun nofun))
  | sent len => exact hemit _ rfl fun _ => .light (light_single (.told _ _ nofun nofun))
  | recv data =>
    unfold Plain.lower
    rw [comes_act_bind, comes_act_modify]
    refine (offer_comes _).mono ?_
    rintro r w' ⟨hf, q, hq, ho⟩
    have hladen := ho.laden (d := 0) light_nil
    rw [List.append_nil] at hladen
    exact ⟨hf, q, Nat.le_succ_of_le ho.length, hq, hladen⟩
  | eof =>
    unfold Plain.lower
    rw [comes_act_bind, comes_act_get, comes_act_bind, act_note_comes, comes_act_bind, comes_act_modify]
    refine (offer_comes _).mono ?_
    rintro r w' ⟨hf, q, hq, ho⟩
    have hladen := ho.laden (d := 0) light_nil
    rw [List.append_nil] at hladen
    exact ⟨hf, q, Nat.le_succ_of_le ho.length, ⟨hq.stack, hq.work⟩, hladen⟩
  | poll =>
    unfold Plain.lower
    rw [comes_act_bind]
    refine (offer_comes l).mono ?_
    rintro r w' ⟨hf, q, hq, ho⟩
    have hpoll := Light.told (H := H) me .poll nofun nofun
    rw [emit_comes, enqueue_event rfl]
    have hadds : Adds [⟨me, .poll, .resolve⟩] 0 w' { w' with
        stack := { w'.stack with queue := w'.stack.queue ++ [⟨me, .poll, .resolve⟩] } } := ⟨rfl, Nat.le_refl _⟩
    refine ⟨hf, q ++ [⟨me, .poll, .resolve⟩], ?_, hq.trans hadds, ho.laden (light_single hpoll)⟩
    rw [List.length_append]
    exact Nat.add_le_add_right ho.length 1

/-- The last event of the engine. -/
theorem lower_error_comes (l : Plain H.Pcb) (reason : Fault) :
    Comes ((((Plain.lower me (.error reason) : Plain.Act H Unit).run l).run (answerLayer b A me)).run flag) w Overflows
      fun r w' => r.2 = true ∧ r.1.2.pcb = none ∧ w'.stack = w.stack.enqueue me (.error reason) ∧ w'.net = w.net := by
  unfold Plain.lower
  rw [comes_act_bind, act_note_comes, comes_act_bind, comes_act_modify]
  refine (comes_act_request _).2 ?_
  show Comes (((do
    enqueue (H := H) me (.error reason)
    set true) : Running H Unit).run flag) _ _ _
  rw [comes_run_bind]
  exact (comes_run_lift _).2 ((comes_modifySlots _).2 ⟨rfl, rfl, rfl, rfl⟩)

/-- The verdict on all that is held. -/
theorem settle_comes (verdict : Outcome) (hl : l.inFlight = some l.rx.size) :
    Comes ((((Plain.settle me verdict : Plain.Act H Unit).run l).run (answerLayer b A me)).run flag) w Overflows
      fun r w' => r.2 = flag ∧ ∃ q, q.length ≤ 1 ∧ Adds q 0 w w' ∧ ∀ item ∈ q, Light item := by
  unfold Plain.settle
  rw [comes_act_bind, comes_act_get]
  dsimp only
  rw [hl]
  dsimp only
  rw [comes_act_bind, comes_act_modify]
  split
  · rw [comes_act_bind, comes_act_modify]
    refine (offer_comes _).mono ?_
    rintro r w' ⟨hf, q, hq, ho⟩
    refine ⟨hf, q, ho.length, hq, ?_⟩
    generalize r.1.2 = l' at ho
    cases ho with
    | nothing => exact light_nil
    | data h =>
      -- nothing is left
      have hsize : (l.rx.advance l.rx.size).size = 0 := by rw [Segments.size_advance, Nat.sub_self]
      exact absurd h (by dsimp only; omega)
    | eof => exact light_single (.told _ _ nofun nofun)
  · exact (act_note_comes _).2 ⟨rfl, [], Nat.zero_le _, .of_eq rfl (Nat.le_refl _), light_nil⟩

/-- The endpoint is given up. -/
theorem abort_comes (l : Plain H.Pcb) :
    Comes ((((Plain.abort me : Plain.Act H Unit).run l).run (answerLayer b A me)).run flag) w Overflows
      fun r w' => r.2 = flag ∧ r.1.2.pcb = none ∧ Adds [] 1 w w' := by
  unfold Plain.abort
  rw [comes_act_bind, comes_act_get]
  dsimp only
  cases hp : l.pcb with
  | none => exact ⟨rfl, hp, .of_eq rfl (Nat.le_add_right _ _)⟩
  | some p =>
    dsimp only
    rw [comes_act_bind, comes_act_modify, comes_act_bind]
    refine (act_pcb_comes .detach p).mono ?_
    rintro r w' ⟨hl, hf, hdetached⟩
    rw [comes_act_bind]
    refine (act_pcb_comes .abort p).mono ?_
    rintro r' w'' ⟨hl', hf', haborted⟩
    rw [comes_act_bind, act_note_comes, comes_act_modify]
    have hadds := hdetached.trans haborted
    refine ⟨hf'.trans hf, ?_, hadds.stack, hadds.work⟩
    show r'.1.2.pcb = none
    rw [hl', hl]

/-- A layer that has given its endpoint up goes without a farewell. -/
theorem dealloc_comes (hp : l.pcb = none) :
    Comes ((((Plain.dealloc me : Plain.Act H Unit).run l).run (answerLayer b A me)).run flag) w Overflows
      fun _ w' => w' = w := by
  unfold Plain.dealloc
  rw [comes_act_bind, comes_act_get]
  dsimp only
  rw [hp]
  exact (comes_act_pure _).2 rfl

end

/-! ## Plain connections at work -/

section

variable {A : Answers H} {free : Handle → Exec H Unit} {p : Bool} {k : Nat}

/-- A method of a plain layer has run in its slot, and has left it as `l` and the events `q` to be delivered. -/
structure Handed (x : Handle) (l : Plain H.Pcb) (q : List (Queued H)) (d : Nat) (w w' : World H) : Prop where
  stack : w'.stack = { w.stack.update x fun e => { e with layer := some (.plain l) } with queue := w.stack.queue ++ q }
  work : w'.net.work ≤ w.net.work + d

theorem Handed.calm (h : Handed x l q' d w w') (hs : w.stack.Calm p q) : w'.stack.Calm p (q ++ q') := by
  rw [h.stack]
  exact ⟨(hs.toFlat.layer l).of_same rfl rfl rfl, hs.depth, hs.pumping, congrArg (· ++ q') hs.queue⟩

theorem Handed.find (h : Handed x l q d w w') (he : w.stack.find? x = some e) :
    w'.stack.find? x = some { e with layer := some (.plain l) } := by
  rw [h.stack]
  show (w.stack.update x _).find? x = _
  rw [find?_update_self, he]
  rfl

/-- A method of a plain layer runs in its slot, and its connection stays. -/
theorem withLayer_comes {m : Method} {Q : Plain H.Pcb → m.Reply → List (Queued H) → Prop}
    (he : w.stack.find? x = some e) (hl : e.layer = some (.plain l))
    (hrun : ∀ w₁ : World H, Comes ((((Plain.step x m : Plain.Act H m.Reply).run l).run (answerLayer b A x)).run false) w₁
      Overflows fun r w₂ => r.2 = false ∧ ∃ q, Adds q d w₁ w₂ ∧ Q r.1.2 r.1.1 q) :
    Comes (withLayer b A free x m) w Overflows fun r w' => ∃ a l' q, r = .ok a ∧ Q l' a q ∧ Handed x l' q d w w' := by
  refine comes_withLayer he hl (comes_run_map ((hrun _).mono ?_))
  rintro r w' ⟨hf, q, hq, hQ⟩
  have hback : w'.stack.back x (.plain r.1.2) =
      { w.stack.update x fun e => { e with layer := some (.plain r.1.2) } with queue := w.stack.queue ++ q } := by
    rw [hq.stack, ← back_away]
    rfl
  refine ⟨by rw [hq.stack]; exact isAlive_away he, ?_⟩
  dsimp only
  rw [hf]
  exact (comes_pure _).2 ⟨r.1.1, r.1.2, q, rfl, hQ, hback, hq.work⟩

/-- A connection that is alone, and whose layer has given its endpoint up, goes. -/
theorem freeEntry_comes (he : w.stack.find? x = some e) (hl : e.layer = some (.plain l)) (hp : l.pcb = none)
    (hi : e.inner = none) (ho : e.outer = none) :
    Comes (freeEntry b A (k + 1) x) w Overflows fun _ w' => w'.stack = w.stack.vacate x ∧ w'.net = w.net := by
  have haway : ({ w.stack.away x with depth := w.stack.depth } : Slots H).find? x = some (bare e) := by
    show (w.stack.away x).find? x = _
    exact find?_away_self he
  have hdealloc : Comes (dealloc b A x) w Overflows fun _ w' =>
      w' = { w with stack := { w.stack.away x with depth := w.stack.depth } } := by
    unfold dealloc
    rw [comes_bind, comes_lookup, he, Option.bind_some, hl]
    dsimp only
    rw [comes_bind, comes_modifySlots, comes_bind]
    refine comes_run_map ((dealloc_comes hp).mono ?_)
    rintro r w' rfl
    rw [comes_modifySlots]
    rfl
  unfold freeEntry
  rw [comes_bind]
  refine hdealloc.mono ?_
  rintro - w' rfl
  rw [comes_bind, comes_lookup, haway]
  dsimp only
  rw [comes_bind, comes_modifySlots]
  have hi' : (bare e).inner = none := hi
  have ho' : (bare e).outer = none := ho
  rw [hi', ho']
  dsimp only
  rw [comes_note]
  exact ⟨vacate_update (f := bare), rfl⟩

/-- A verdict is told to a plain layer. -/
theorem settled_comes (hs : w.stack.Calm p q) (hx : w.stack.OutWhole x) (verdict : Outcome) :
    Comes (settleRecv b A free x verdict) w Overflows fun _ w' => ∃ q', q'.length ≤ 1 ∧ (∀ item ∈ q', Light item) ∧
      w'.stack.Calm p (q ++ q') ∧ w'.net.work ≤ w.net.work := by
  unfold settleRecv
  rw [comes_bind]
  cases he : w.stack.find? x with
  | none =>
    unfold withLayer
    simp only [comes_bind, comes_lookup, he, comes_pure]
    exact ⟨[], Nat.zero_le _, light_nil, by rwa [List.append_nil], Nat.le_refl _⟩
  | some e =>
    obtain ⟨⟨l, hl⟩, -, -⟩ := hs.plain x e he
    refine (withLayer_comes (d := 0) (Q := fun _ _ q' => q'.length ≤ 1 ∧ ∀ item ∈ q', Light item) he hl fun w₁ => ?_).mono ?_
    · refine (settle_comes verdict (hx e l he hl)).mono ?_
      rintro r w₂ ⟨hf, q', hlen, hq', hlight⟩
      exact ⟨hf, q', hq', hlen, hlight⟩
    · rintro r w' ⟨a, l', q', -, ⟨hlen, hlight⟩, hh⟩
      exact (comes_pure _).2 ⟨q', hlen, hlight, hh.calm hs, hh.work⟩

/-- An event is brought to a plain layer. -/
theorem lowered_comes (hs : w.stack.Calm p q) (he : w.stack.find? x = some e) {event : Event} (hevent : event.isError = false) :
    Comes (withLayer b A free x (.op (.lower event))) w Overflows fun r w' => r = .ok (.ok ()) ∧ ∃ q', q'.length ≤ 2 ∧
      Laden x (w'.stack.OutWhole x) event.toll q' ∧ w'.stack.Calm p (q ++ q') ∧ w'.net.work ≤ w.net.work := by
  obtain ⟨⟨l, hl⟩, -, -⟩ := hs.plain x e he
  refine (withLayer_comes (m := .op (.lower event)) (d := 0) (Q := fun l' a q' => a = Except.ok () ∧ q'.length ≤ 2 ∧
    Laden x (l'.inFlight = some l'.rx.size) event.toll q') he hl fun w₁ => ?_).mono ?_
  · refine (comes_act_bind (Plain.lower x event) fun _ => pure (Except.ok ())).2 ((lower_comes l hevent).mono ?_)
    rintro r w₂ ⟨hf, q', hlen, hq', hladen⟩
    exact (comes_act_pure _).2 ⟨hf, q', hq', rfl, hlen, hladen⟩
  · rintro r w' ⟨a, l', q', rfl, ⟨rfl, hlen, hladen⟩, hh⟩
    refine ⟨rfl, q', hlen, hladen.imp fun hw => ?_, hh.calm hs, hh.work⟩
    intro e' l'' he' hl'
    cases (hh.find he).symm.trans he'
    cases hl'
    exact hw

/-- The last event of its endpoint is brought to a plain layer, and its connection goes. -/
theorem ended_comes (hs : w.stack.Calm p q) (he : w.stack.find? x = some e) (reason : Fault) :
    Comes (withLayer b A (freeEntry b A (k + 1)) x (.op (.lower (.error reason)))) w Overflows fun r w' =>
      r = .ok (.ok ()) ∧ ∃ item, Light item ∧ w'.stack.Calm p (q ++ [item]) ∧ w'.net = w.net := by
  obtain ⟨⟨l, hl⟩, hi, ho⟩ := hs.plain x e he
  refine comes_withLayer he hl (comes_run_map ?_)
  refine (comes_act_bind (Plain.lower x (.error reason)) fun _ => pure (Except.ok ())).2 ((lower_error_comes l reason).mono ?_)
  rintro r w' ⟨hf, hp, hstack, hnet⟩
  rw [comes_act_pure]
  have haway : (w.stack.away x).find? x = some (bare e) := find?_away_self he
  rw [enqueue_final haway ho] at hstack
  dsimp only
  rw [hf]
  refine ⟨by rw [hstack]; exact isAlive_update.trans (isAlive_away he), ?_⟩
  rw [if_pos rfl]
  generalize hitem : (⟨x, .error reason, .sink (bare e).callbacks.err⟩ : Queued H) = item at hstack
  -- the connection, as it is left for the last time
  obtain ⟨e', he', hi', ho'⟩ : ∃ e', w'.stack.find? x = some e' ∧ e'.inner = none ∧ e'.outer = none := by
    refine ⟨{ bare e with callbacks := (bare e).callbacks.set .err none }, ?_, hi, ho⟩
    rw [hstack]
    show ((w.stack.away x).update x _).find? x = _
    rw [find?_update_self, haway]
    rfl
  have hback : (w'.stack.back x (.plain r.1.2)).find? x = some { e' with layer := some (.plain r.1.2) } := by
    rw [find?_back, if_pos rfl, he']
    rfl
  refine (freeEntry_comes (e := { e' with layer := some (.plain r.1.2) }) hback rfl hp hi' ho').mono ?_
  rintro - w'' ⟨hstack', hnet'⟩
  have hgone : w''.stack = { w.stack.vacate x with queue := q ++ [item] } := by
    rw [hstack', hstack, ← hs.queue]
    calc
      (({ (w.stack.away x).takeCallback x .err with queue := w.stack.queue ++ [item] } : Slots H).back x
          (.plain r.1.2)).vacate x
      _ = ({ (w.stack.away x).takeCallback x .err with
            queue := w.stack.queue ++ [item], depth := w.stack.depth } : Slots H).vacate x :=
          vacate_update (s := { (w.stack.away x).takeCallback x .err with
            queue := w.stack.queue ++ [item], depth := w.stack.depth })
      _ = ({ w.stack.away x with queue := w.stack.queue ++ [item], depth := w.stack.depth } : Slots H).vacate x :=
          vacate_update (s := { w.stack.away x with queue := w.stack.queue ++ [item], depth := w.stack.depth })
      _ = { w.stack.vacate x with queue := w.stack.queue ++ [item] } :=
          vacate_update (s := { w.stack with queue := w.stack.queue ++ [item] })
  refine ⟨rfl, item, hitem ▸ .ended _ _ _, ?_, hnet'.trans hnet⟩
  rw [hgone]
  exact ⟨(hs.toFlat.vacate he).of_same rfl rfl rfl, hs.depth, hs.pumping, rfl⟩

/-- A connection whose layer has given its endpoint up is told its end, and goes. -/
theorem parted_comes (hs : w.stack.Calm p q) (he : w.stack.find? x = some e) (hl : e.layer = some (.plain l))
    (hp : l.pcb = none) (reason : Fault) :
    Comes (freeEntry b A (k + 1) x) { w with stack := w.stack.enqueue x (.error reason) } Overflows fun _ w' =>
      ∃ item, Light item ∧ w'.stack.Calm p (q ++ [item]) ∧ w'.net = w.net := by
  obtain ⟨-, hi, ho⟩ := hs.plain x e he
  rw [enqueue_final he ho]
  have htaken : (w.stack.takeCallback x .err).Calm p q := hs.framed (framed_update fun _ => rfl)
  have hfind : (w.stack.takeCallback x .err).find? x = some { e with callbacks := e.callbacks.set .err none } := by
    unfold takeCallback
    rw [find?_update_self, he]
    rfl
  refine (freeEntry_comes (w := { w with stack := { w.stack.takeCallback x .err with
    queue := w.stack.queue ++ [⟨x, .error reason, .sink e.callbacks.err⟩] } }) hfind hl hp hi ho).mono ?_
  rintro - w' ⟨hstack, hnet⟩
  refine ⟨⟨x, .error reason, .sink e.callbacks.err⟩, .ended _ _ _, ?_, hnet⟩
  rw [hstack, ← hs.queue]
  exact ⟨(htaken.toFlat.vacate hfind).of_same rfl rfl rfl, hs.depth, hs.pumping, rfl⟩

end

end Stack

end Conduit
