import Conduit.Proofs.Layer.Hands
import Conduit.Proofs.Stack.Diary
import Conduit.Proofs.Stack.Inner

/-!
# Data flows through a stack

One connection is watched while a stack works. Its layer lets data flow: what it has handed up waits in the queue, or is
being delivered, and what it holds otherwise was refused. Whatever the other connections do leaves that alone.

* `lastVerdict`, `Refused`: what the application has last said of the data of a connection.
* `Recorded.Watched`: what is known of the connection; `Recorded.Tended`: what work leaves of that.
* `Recorded.withLayer_tends`, `Recorded.freeEntry_tends`: **a method that runs, and a connection that goes, leave it.**
-/

namespace Conduit

open Exec

/-! ## What waits, and what was said -/

section

variable {H : Host} {s s' : Slots H} {id x : Handle}

/-- The data of a connection that an event hands up. -/
def Queued.parcel (x : Handle) (q : Queued H) : List Bytes := if q.source = x then q.event.parcel else []

/-- The data of a connection that waits for delivery. -/
def Slots.parcels (s : Slots H) (x : Handle) : List Bytes := s.queue.flatMap (Queued.parcel x)

theorem Slots.parcels_congr (h : s'.queue = s.queue) : s'.parcels x = s.parcels x := by
  unfold parcels
  rw [h]

theorem Slots.parcels_enqueue (s : Slots H) (id x : Handle) (e : Event) :
    (s.enqueue id e).parcels x = s.parcels x ++ if id = x then e.parcel else [] := by
  have hone : ∀ (queue : List (Queued H)) (q : Queued H), q.source = id → q.event = e →
      (queue ++ [q]).flatMap (Queued.parcel x) =
        queue.flatMap (Queued.parcel x) ++ if id = x then e.parcel else [] := by
    rintro queue q rfl rfl
    simp [Queued.parcel]
  by_cases he : e.isError = true
  · cases e with
    | error reason =>
      cases hf : s.find? id with
      | none => simp [enqueue, hf, Event.parcel]
      | some e =>
        cases ho : e.outer with
        | some outer =>
          rw [enqueue_passed hf ho]
          exact hone _ _ rfl rfl
        | none =>
          rw [enqueue_final hf ho]
          exact hone _ _ rfl rfl
    | _ => cases he
  · rw [enqueue_event (Bool.not_eq_true _ ▸ he)]
    exact hone _ _ rfl rfl

theorem Slots.pumping_enqueue (s : Slots H) (id : Handle) (e : Event) : (s.enqueue id e).pumping = s.pumping := by
  unfold enqueue
  split
  · split
    · rfl
    · split <;> rfl
  · rfl

theorem Slots.found_enqueue {e : Event} {e' : Entry H} (h : (s.enqueue id e).find? x = some e') :
    ∃ e₀, s.find? x = some e₀ ∧ e₀.layer = e'.layer := by
  by_cases he : e.isError = true
  · cases e with
    | error reason =>
      cases hf : s.find? id with
      | none =>
        simp only [enqueue, hf] at h
        exact ⟨e', h, rfl⟩
      | some e =>
        cases ho : e.outer with
        | some outer =>
          rw [enqueue_passed hf ho] at h
          exact ⟨e', h, rfl⟩
        | none =>
          rw [enqueue_final hf ho] at h
          change (s.takeCallback id .err).find? x = some e' at h
          unfold takeCallback at h
          rw [find?_update] at h
          split at h
          · rename_i hx
            obtain ⟨e₀, he₀, rfl⟩ := Option.map_eq_some_iff.1 h
            exact ⟨e₀, hx ▸ he₀, rfl⟩
          · exact ⟨e', h, rfl⟩
    | _ => cases he
  · rw [enqueue_event (Bool.not_eq_true _ ▸ he)] at h
    exact ⟨e', h, rfl⟩

/-- The verdict of the callback of a connection, and the data that it was called for. -/
def Deed.verdictOn (x : Handle) : Deed → Option (Bytes × Outcome)
  | .got id (some data) v => if id = x then some (data, v) else none
  | _ => none

/-- The last verdict of the callback of a connection. -/
def lastVerdict (x : Handle) (ds : List Deed) : Option (Bytes × Outcome) := (ds.filterMap (Deed.verdictOn x)).getLast?

/-- The last verdict was to refuse `d`. -/
def Refused (v : Option (Bytes × Outcome)) (d : Bytes) : Prop := ∃ f, v = some (d, .error f)

theorem lastVerdict_got (x : Handle) (ds : List Deed) (d : Bytes) (v : Outcome) :
    lastVerdict x (ds ++ [.got x (some d) v]) = some (d, v) := by
  simp [lastVerdict, Deed.verdictOn]

theorem lastVerdict_of_none {d : Deed} (hd : d.verdictOn x = none) (ds : List Deed) :
    lastVerdict x (ds ++ [d]) = lastVerdict x ds := by
  simp [lastVerdict, List.filterMap_append, List.filterMap_cons_none hd]

end

variable {G : Host} {whole : G.diarist.Engine → Bytes → Prop} {x : Handle}

namespace Recorded

open Stack Slots Mark

variable {b : Behaviour G.diarist} {w w' w'' : World G.diarist} {t u h : List (Mark G.diarist)} {R : List Handle}
  {extra out : List Bytes} {id : Handle}

/-! ## The connection that is watched -/

/-- What is known of the connection `x`, if its handle is given out but once: it was recorded when it came; nothing of it
waits before; and data flows through its layer. The data `extra` is being delivered. -/
structure Watched (whole : G.diarist.Engine → Bytes → Prop) (x : Handle) (extra : List Bytes) (h : List (Mark G.diarist))
    (w : World G.diarist) : Prop where
  alive : w.stack.isAlive x = true → .born x ∈ h
  unborn : .born x ∉ h → extra ++ w.stack.parcels x = []
  flowing : (births h).count x ≤ 1 → ∀ e layer, w.stack.find? x = some e → e.layer = some layer →
    layer.Flowing whole (Refused (lastVerdict x w.memory.2)) (extra ++ w.stack.parcels x)

/-- Nothing has happened to the connection. -/
structure Undisturbed (x : Handle) (w w' : World G.diarist) : Prop where
  parcels : w'.stack.parcels x = w.stack.parcels x
  verdict : lastVerdict x w'.memory.2 = lastVerdict x w.memory.2
  alive : w'.stack.isAlive x = true → w.stack.isAlive x = true
  layer : ∀ e' l, w'.stack.find? x = some e' → e'.layer = some l → ∃ e, w.stack.find? x = some e ∧ e.layer = some l
  pumping : w'.stack.pumping = w.stack.pumping

/-- What work leaves of the connection while the layers of `R` run: if its own is one of them, nothing of it comes to wait;
if not, all that is known of it stays true. Data is being delivered only while events are. -/
structure Tended (whole : G.diarist.Engine → Bytes → Prop) (x : Handle) (R : List Handle) (w : World G.diarist)
    (t : List (Mark G.diarist)) (w' : World G.diarist) : Prop where
  aside : x ∈ R → w'.stack.parcels x = w.stack.parcels x ∧ lastVerdict x w'.memory.2 = lastVerdict x w.memory.2
  watched : x ∉ R → ∀ extra h, (w.stack.pumping = false → extra = []) → Watched whole x extra h w →
    Watched whole x extra (h ++ t) w'
  pumping : w'.stack.pumping = w.stack.pumping

theorem Undisturbed.refl (x : Handle) (w : World G.diarist) : Undisturbed x w w :=
  ⟨rfl, rfl, id, fun e _ he hl => ⟨e, he, hl⟩, rfl⟩

theorem Undisturbed.trans (h : Undisturbed x w w') (h' : Undisturbed x w' w'') : Undisturbed x w w'' := by
  refine ⟨h'.parcels.trans h.parcels, h'.verdict.trans h.verdict, fun ha => h.alive (h'.alive ha), fun e'' l he hl => ?_,
    h'.pumping.trans h.pumping⟩
  obtain ⟨e', he', hl'⟩ := h'.layer e'' l he hl
  exact h.layer e' l he' hl'

theorem count_births_le (h t : List (Mark G.diarist)) (x : Handle) : (births h).count x ≤ (births (h ++ t)).count x := by
  rw [births_append, List.count_append]
  exact Nat.le_add_right _ _

theorem Watched.undisturbed (h' : Watched whole x extra h w) (hu : Undisturbed x w w') (t : List (Mark G.diarist)) :
    Watched whole x extra (h ++ t) w' := by
  refine ⟨fun ha => List.mem_append_left _ (h'.alive (hu.alive ha)), fun hb => ?_, fun hn e layer he hl => ?_⟩
  · rw [hu.parcels]
    exact h'.unborn fun hb' => hb (List.mem_append_left _ hb')
  · obtain ⟨e₀, he₀, hl₀⟩ := hu.layer e layer he hl
    rw [hu.parcels, hu.verdict]
    exact h'.flowing (Nat.le_trans (count_births_le h t x) hn) e₀ layer he₀ hl₀

theorem Undisturbed.tended (hu : Undisturbed x w w') (t : List (Mark G.diarist)) : Tended whole x R w t w' :=
  ⟨fun _ => ⟨hu.parcels, hu.verdict⟩, fun _ _ _ _ h => h.undisturbed hu t, hu.pumping⟩

theorem Tended.refl : Tended whole x R w [] w := (Undisturbed.refl x w).tended []

theorem Tended.trans (h : Tended whole x R w t w') (h' : Tended whole x R w' u w'') :
    Tended whole x R w (t ++ u) w'' := by
  refine ⟨fun hx => ⟨(h'.aside hx).1.trans (h.aside hx).1, (h'.aside hx).2.trans (h.aside hx).2⟩,
    fun hx extra h₀ he hw => ?_, h'.pumping.trans h.pumping⟩
  rw [← List.append_assoc]
  exact h'.watched hx extra _ (fun hp => he (h.pumping ▸ hp)) (h.watched hx extra h₀ he hw)

/-- A connection that has come and is gone is known enough. -/
theorem watched_of_gone (hb : .born x ∈ h) (hg : w.stack.find? x = none) : Watched whole x extra h w := by
  refine ⟨fun _ => hb, fun hb' => absurd hb hb', fun _ e layer he => ?_⟩
  rw [hg] at he
  cases he

/-- The work of which the connection goes. -/
theorem Tended.of_gone (hx : x ∉ R) (ha : w.stack.isAlive x = true) (hg : w'.stack.isAlive x = false)
    (hp : w'.stack.pumping = w.stack.pumping) : Tended whole x R w t w' :=
  ⟨fun hx' => absurd hx' hx, fun _ _ _ _ h => watched_of_gone (List.mem_append_left _ (h.alive ha))
    (isAlive_eq_false.1 hg), hp⟩

/-- While another layer runs. -/
theorem Tended.within (h : Tended whole x (id :: R) w t w') (hid : id ≠ x) : Tended whole x R w t w' := by
  have hmem : x ∈ id :: R ↔ x ∈ R := by simp [Ne.symm hid]
  exact ⟨fun hx => h.aside (hmem.2 hx), fun hx => h.watched fun hx' => hx (hmem.1 hx'), h.pumping⟩

/-! ## Steps that do not concern the connection -/

/-- Slots in which the layer of the connection is where it was. -/
theorem Undisturbed.of_slots {s : Slots G.diarist} (hq : s.queue = w.stack.queue) (hp : s.pumping = w.stack.pumping)
    (ha : s.isAlive x = true → w.stack.isAlive x = true)
    (hl : ∀ e' l, s.find? x = some e' → e'.layer = some l → ∃ e, w.stack.find? x = some e ∧ e.layer = some l) :
    Undisturbed x w { w with stack := s } := ⟨parcels_congr hq, rfl, ha, hl, hp⟩

theorem Undisturbed.update {f : Entry G.diarist → Entry G.diarist} (hf : id = x → ∀ e, (f e).layer = e.layer) :
    Undisturbed x w { w with stack := w.stack.update id f } := by
  refine .of_slots rfl rfl (fun ha => ?_) fun e' l he hl => ?_
  · rwa [isAlive_update] at ha
  · rw [find?_update] at he
    split at he
    · rename_i hx
      obtain ⟨e, he', rfl⟩ := Option.map_eq_some_iff.1 he
      refine ⟨e, hx ▸ he', ?_⟩
      rw [← hf hx.symm e]
      exact hl
    · exact ⟨e', he, hl⟩

/-- Only counters and flags. -/
theorem Undisturbed.of_same {s : Slots G.diarist} (hs : s.slots = w.stack.slots) (hq : s.queue = w.stack.queue)
    (hp : s.pumping = w.stack.pumping) : Undisturbed x w { w with stack := s } := by
  have hfind : s.find? x = w.stack.find? x := by
    unfold find?
    rw [hs]
  refine .of_slots hq hp (fun ha => ?_) fun e' l he hl => ⟨e', hfind ▸ he, hl⟩
  unfold isAlive at ha ⊢
  rwa [← hfind]

/-- What the application remembers beside its diary, the net, and what engines share. -/
theorem Undisturbed.of_stack (hs : w'.stack = w.stack) (hm : w'.memory.2 = w.memory.2) : Undisturbed x w w' := by
  refine ⟨by rw [hs], by rw [hm], fun ha => ?_, fun e' l he hl => ⟨e', ?_, hl⟩, by rw [hs]⟩
  · rwa [hs] at ha
  · rwa [hs] at he

/-- An event of another connection waits, or one that hands nothing up. -/
theorem Undisturbed.enqueue {e : Event} (he : id = x → e.parcel = []) :
    Undisturbed x w { w with stack := w.stack.enqueue id e } := by
  have hfound : ∀ e', (w.stack.enqueue id e).find? x = some e' → ∃ e, w.stack.find? x = some e ∧ e.layer = e'.layer :=
    fun e' => found_enqueue
  refine ⟨?_, rfl, fun ha => ?_, fun e' l hf hl => ?_, pumping_enqueue _ _ _⟩
  · show (w.stack.enqueue id e).parcels x = _
    rw [parcels_enqueue]
    split
    · rename_i hx
      rw [he hx, List.append_nil]
    · exact List.append_nil _
  · obtain ⟨e', hf⟩ := isAlive_iff.1 ha
    obtain ⟨e₀, he₀, -⟩ := hfound e' hf
    exact isAlive_iff.2 ⟨e₀, he₀⟩
  · obtain ⟨e₀, he₀, hl₀⟩ := hfound e' hf
    exact ⟨e₀, he₀, hl₀.trans hl⟩

theorem Undisturbed.noted (n : Note) : Undisturbed x w { w with memory := b.diarist.note n w.memory } := .of_stack rfl rfl

/-- Nothing is done to the stack, and nothing is entered into the diary. -/
def Quiet (w w' : World G.diarist) : Prop := w'.stack = w.stack ∧ w'.memory.2 = w.memory.2

theorem Quiet.undisturbed (h : Quiet w w') : Undisturbed x w w' := .of_stack h.1 h.2

theorem note_quiet (n : Note) : Exec.Ends (note b.diarist n) w fun _ w' => Quiet w w' := (ends_note n).2 ⟨rfl, rfl⟩

theorem notes_quiet (ns : List Note) : Exec.Ends (notes b.diarist ns) w fun _ w' => Quiet w w' := by
  unfold notes
  induction ns generalizing w with
  | nil => exact (Exec.ends_pure _).2 ⟨rfl, rfl⟩
  | cons n ns ih =>
    show Exec.Ends (note b.diarist n >>= fun _ => ns.forM (note b.diarist)) w _
    rw [Exec.ends_bind, ends_note]
    exact ih.mono fun _ w' h => h

theorem performPcb_quiet (p : PcbRef G.diarist.Pcb) (o : PcbOp) :
    Exec.Ends (performPcb b.diarist p o) w fun _ w' => Quiet w w' := by
  unfold performPcb
  cases p with
  | loopback i =>
    dsimp only
    rw [Exec.ends_bind, Exec.ends_get]
    split
    · exact ends_throw _
    · rename_i r _
      rw [Exec.ends_bind, Exec.ends_modify, Exec.ends_bind]
      exact (notes_quiet r.notes).mono fun _ w' h => (Exec.ends_pure _).2 h
  | external p =>
    dsimp only
    rw [Exec.ends_bind, Exec.ends_get, Exec.ends_bind, Exec.ends_modify, Exec.ends_pure]
    exact ⟨rfl, rfl⟩

theorem newEngine_quiet (config : Tls.Config G.diarist.Source) (name : Option Tls.ServerName) :
    Exec.Ends (Stack.newEngine b.diarist config name) w fun _ w' => Quiet w w' := by
  unfold Stack.newEngine
  rw [Exec.ends_bind, Exec.ends_get, Exec.ends_bind, Exec.ends_modify, Exec.ends_pure]
  exact ⟨rfl, rfl⟩

/-! ## Layers at work -/

/-- How requests are answered while layers run: what is known of the connection stays true, and a layer that is put on an
accepted connection lets data flow. -/
structure Tends (whole : G.diarist.Engine → Bytes → Prop) (x : Handle) (A : Answers G.diarist) : Prop extends Modest A where
  ask_tends : ∀ R id o w, R ≠ [] → w.stack.Sound R → Allowed R w.stack (.ask id o) →
    Ends (A (.ask id o)) w fun _ t w' => Tended whole x R w t w'
  cover_tends : ∀ R inner l w, w.stack.Sound R → l.Fresh →
    Ends (A (.wrap inner (.secure l))) w fun _ t w' => Tended whole x R w t w'

/-- What a layer leaves of the connection that is watched: its own hands up what it does, another does nothing to it. -/
structure Asked (whole : G.diarist.Engine → Bytes → Prop) (x id : Handle) (R : List Handle) (out : List Bytes)
    (w : World G.diarist) (t : List (Mark G.diarist)) (w' : World G.diarist) : Prop where
  own : id = x → w'.stack.parcels x = w.stack.parcels x ++ out ∧ lastVerdict x w'.memory.2 = lastVerdict x w.memory.2
  other : id ≠ x → Tended whole x R w t w'

theorem Undisturbed.asked (hu : Undisturbed x w w') (t : List (Mark G.diarist)) : Asked whole x id R [] w t w' :=
  ⟨fun _ => ⟨hu.parcels.trans (List.append_nil _).symm, hu.verdict⟩, fun _ => hu.tended t⟩

theorem Tended.asked (h : Tended whole x (id :: R) w t w') : Asked whole x id R [] w t w' :=
  ⟨fun hid => ⟨(h.aside (by simp [hid])).1.trans (List.append_nil _).symm, (h.aside (by simp [hid])).2⟩, h.within⟩

theorem Asked.refl : Asked whole x id R [] w [] w := (Undisturbed.refl x w).asked []

theorem Asked.trans {out' : List Bytes} (h : Asked whole x id R out w t w') (h' : Asked whole x id R out' w' u w'') :
    Asked whole x id R (out ++ out') w (t ++ u) w'' := by
  refine ⟨fun hid => ⟨?_, (h'.own hid).2.trans (h.own hid).2⟩, fun hid => (h.other hid).trans (h'.other hid)⟩
  rw [(h'.own hid).1, (h.own hid).1, List.append_assoc]

section

variable {A : Answers G.diarist} (hA : Tends whole x A)
include hA

/-- **A request of a layer.** -/
theorem answerLayer_tends {r : Layer.Req G.diarist} {flag : Bool} (hs : w.stack.Sound (id :: R))
    (hallowed : Allowed (id :: R) w.stack r) (hnew : ∀ i l, r = .cover i l → l.Fresh) :
    Ends ((answerLayer b.diarist A id r).run flag) w fun y t w' =>
      y.2 = (flag || r.lets) ∧ Asked whole x id R r.parcel w t w' := by
  have hsame : flag = (flag || false) := (Bool.or_false flag).symm
  cases r with
  | ask y o =>
    refine (ends_run_lift _).2 ((hA.ask_tends (id :: R) y o w (by simp) hs hallowed).mono ?_)
    exact fun _ t w' h => ⟨hsame, h.asked⟩
  | cover i l =>
    refine (ends_run_lift _).2 ((hA.cover_tends (id :: R) i l w hs (hnew i l rfl)).mono ?_)
    exact fun _ t w' h => ⟨hsame, h.asked⟩
  | emit e =>
    show Ends ((monadLift (enqueue (H := G.diarist) id e) : Running G.diarist Unit).run flag) w _
    simp only [ends_run_lift, enqueue, ends_bind, ends_lift, ends_getSlots, ends_record, Stack.enqueue, ends_modifySlots]
    refine ⟨hsame, fun hid => ⟨?_, rfl⟩, fun hid => (Undisturbed.enqueue fun hx => absurd hx hid).tended _⟩
    show (w.stack.enqueue id e).parcels x = _
    rw [parcels_enqueue, if_pos hid]
    rfl
  | fail reason =>
    show Ends ((do monadLift (enqueue (H := G.diarist) id (.error reason)); set true : Running G.diarist PUnit).run flag) w _
    simp only [ends_run_bind, ends_run_lift, enqueue, ends_bind, ends_lift, ends_getSlots, ends_record, Stack.enqueue,
      ends_modifySlots]
    intro y w' hrun
    cases hrun
    exact ⟨(Bool.or_true flag).symm, (Undisturbed.enqueue fun _ => rfl).asked _⟩
  | release =>
    intro y w' hrun
    cases hrun
    exact ⟨(Bool.or_true flag).symm, .refl⟩
  | inner =>
    show Ends (lift ((do
      pure ((← lookup (H := G.diarist) id).bind (·.inner)) : Stack.Running G.diarist (Option Handle)).run flag)) w _
    simp only [ends_lift, Stack.ends_run_bind, Stack.ends_run_lift, ends_lookup, Stack.ends_run_pure]
    exact ⟨hsame, .refl⟩
  | pollInterval =>
    show Ends (lift ((do
      pure (((← lookup (H := G.diarist) id).map (·.pollInterval)).getD 0) : Stack.Running G.diarist Nat).run flag)) w _
    simp only [ends_lift, Stack.ends_run_bind, Stack.ends_run_lift, ends_lookup, Stack.ends_run_pure]
    exact ⟨hsame, .refl⟩
  | note n =>
    show Ends (lift ((monadLift (note b.diarist n) : Stack.Running G.diarist Unit).run flag)) w _
    rw [ends_lift, Stack.ends_run_lift]
    exact (note_quiet n).mono fun _ w' h => ⟨hsame, h.undisturbed.asked []⟩
  | pcb p o =>
    show Ends (lift ((monadLift (performPcb b.diarist p o) : Stack.Running G.diarist o.Reply).run flag)) w _
    rw [ends_lift, Stack.ends_run_lift]
    exact (performPcb_quiet p o).mono fun _ w' h => ⟨hsame, h.undisturbed.asked []⟩
  | newEngine config name =>
    show Ends (lift ((monadLift (Stack.newEngine b.diarist config name) :
      Stack.Running G.diarist (Except Fault G.diarist.Engine)).run flag)) w _
    rw [ends_lift, Stack.ends_run_lift]
    exact (newEngine_quiet config name).mono fun _ w' h => ⟨hsame, h.undisturbed.asked []⟩
  | shared =>
    intro y w' hrun
    cases hrun
    exact ⟨hsame, .refl⟩
  | setShared v =>
    intro y w' hrun
    cases hrun
    have hu : Undisturbed x w { w with shared := v } := .of_stack rfl rfl
    exact ⟨hsame, hu.asked []⟩

/-- **A program of a layer** hands up what it says, and does nothing else to the connection. -/
theorem program_tends {α : Type} {top : Bool} {K : List Handle} {p : Program (Layer.io G.diarist) α}
    {post : List Handle → Bool → α → Prop} {mid : α → Bool → List Bytes → Prop} (hp : p.Inward top K post)
    (hf : Found top id R K w.stack) (he : p.Emits Tls.Layer.Fresh mid false out) :
    Ends ((p.run (answerLayer b.diarist A id)).run false) w fun y u w' =>
      ∃ out', mid y.1 y.2 (out ++ out') ∧ Asked whole x id R out' w u w' := by
  refine inward_rule (t := []) hA.toModest hp hf
    (I := fun p flag t w₁ => ∃ out', p.Emits Tls.Layer.Fresh mid flag (out ++ out') ∧ Asked whole x id R out' w t w₁)
    ⟨[], by rwa [List.append_nil], .refl⟩ ?_
  rintro r next t w₁ hs hallowed ⟨out', he', hasked⟩
  obtain ⟨hnew, hnext⟩ := he'.next
  refine (answerLayer_tends hA hs hallowed hnew).mono ?_
  rintro y u w₂ ⟨hflag, h⟩
  refine ⟨out' ++ r.parcel, ?_, hasked.trans h⟩
  rw [hflag, ← List.append_assoc]
  exact hnext y.1

variable [IsEmpty G.Layer] {m : Method}

/-- **A method of a layer.** -/
theorem runMethod_tends (hm : m ≠ .dealloc) (htop : m.isLower = true → R = []) (hs : w.stack.Sound (id :: R))
    (hc : w.stack.Clear R id) {layer : Layer G.diarist} {post : m.Reply → Layer G.diarist → Bool → List Bytes → Prop}
    (h : layer.Hands b.diarist id m out post) :
    Ends ((runMethod b.diarist A id m layer).run false) w fun y u w' =>
      ∃ out', post y.1.2 y.1.1 y.2 (out ++ out') ∧ Asked whole x id R out' w u w' := by
  have hf : Found m.isLower id R [] w.stack := ⟨hs, hc, fun x hx => absurd hx List.not_mem_nil, htop⟩
  cases layer with
  | plain l => exact ends_run_map (program_tends hA (Plain.step_inward id m hm l) hf h)
  | secure l => exact ends_run_map (program_tends hA (Secure.step_inward m hm l) hf h)
  | passthrough name => exact ends_run_map (program_tends hA (Layer.forward_inward m ()) hf h)
  | custom l => exact isEmptyElim l

/-- What frees a connection, while the layers of others run, leaves what is known of the one that is watched. -/
def Spares (whole : G.diarist.Engine → Bytes → Prop) (x : Handle) (free : Handle → Recorded G.diarist Unit) : Prop :=
  ∀ R id w, w.stack.Sound R → w.stack.Clear R id → w.stack.isAlive id = true →
    Ends (free id) w fun _ t w' => Tended whole x R w t w'

omit hA [IsEmpty G.Layer] in
theorem away_undisturbed (hid : id ≠ x) : Undisturbed x w { w with stack := w.stack.away id } := by
  have hout : Undisturbed x w { w with stack := w.stack.update id fun e => { e with layer := none } } :=
    .update fun hc => absurd hc hid
  exact hout.trans (.of_same rfl rfl rfl)

omit hA [IsEmpty G.Layer] in
theorem back_undisturbed (hid : id ≠ x) (layer : Layer G.diarist) :
    Undisturbed x w { w with stack := w.stack.back id layer } := by
  have hdone : Undisturbed x w { w with stack := { w.stack with depth := w.stack.depth - 1 } } := .of_same rfl rfl rfl
  exact hdone.trans (.update (w := { w with stack := { w.stack with depth := w.stack.depth - 1 } }) fun hc => absurd hc hid)

variable {free : Handle → Recorded G.diarist Unit}

/-- A method of another connection. -/
theorem withLayer_tends_other (hfree : Spares whole x free) (hid : id ≠ x) (hm : m ≠ .dealloc)
    (htop : m.isLower = true → R = []) (hs : w.stack.Sound R) (hc : w.stack.Clear R id) :
    Ends (withLayer b.diarist A free id m) w fun _ t w' => Tended whole x R w t w' := by
  refine withLayer_rule (Q := fun _ _ _ t w' => Tended whole x R w t w') hA.toModest hm htop hs hc
    (fun _ => .refl) (fun e layer he hl => ?_) (fun layer reply t w₁ _ h => ?_) fun layer reply t w₁ h hs' hc' ha => ?_
  · have hsound : (w.stack.away id).Sound (id :: R) := hs.enter (isAlive_iff.2 ⟨e, he⟩)
    have hclear : (w.stack.away id).Clear R id := hc.shrinks (shrinks_away _ _) hs.toLinked hsound.toLinked
    refine (runMethod_tends (w := { w with stack := w.stack.away id }) hA hm htop hsound hclear
      (Layer.hands_any layer hm [])).mono ?_
    rintro y u w' ⟨_, -, h⟩
    exact ((away_undisturbed hid).tended []).trans (h.other hid)
  · have hback := h.trans ((back_undisturbed hid layer).tended [])
    rwa [List.append_nil] at hback
  · refine (hfree R id { w₁ with stack := w₁.stack.back id layer } hs' hc' ha).mono fun _ u w₂ h' => ?_
    rw [← List.append_assoc]
    exact (h.trans ((back_undisturbed hid layer).tended (closing id m reply))).trans h'

omit hA [IsEmpty G.Layer] in
/-- If its handle was given out twice, nothing is known of a connection. -/
theorem watched_of_crowded (hb : .born x ∈ h) (hn : ¬ (births h).count x ≤ 1) (t : List (Mark G.diarist)) :
    Watched whole x extra (h ++ t) w' :=
  ⟨fun _ => List.mem_append_left _ hb, fun hb' => absurd (List.mem_append_left _ hb) hb',
    fun hn' => absurd (Nat.le_trans (count_births_le h t x) hn') hn⟩

/-- **A method of the connection's own layer** lets data flow, if the layer does. -/
theorem withLayer_tends_own (hfree : Frees free) (hm : m ≠ .dealloc) (htop : m.isLower = true → R = [])
    (hs : w.stack.Sound R) (hc : w.stack.Clear R x) {extra' : List Bytes} (hw : Watched whole x extra h w)
    (hborn : .born x ∉ h → extra' = [])
    (hhands : ∀ layer : Layer G.diarist,
      layer.Flowing whole (Refused (lastVerdict x w.memory.2)) (extra ++ w.stack.parcels x) →
      layer.Hands b.diarist x m (extra' ++ w.stack.parcels x) fun _ l' flag out =>
        flag = false → l'.Flowing whole (Refused (lastVerdict x w.memory.2)) out) :
    Ends (withLayer b.diarist A free x m) w fun _ t w' => Watched whole x extra' (h ++ t) w' := by
  -- the layer hands something up, and what it hands up waits
  refine withLayer_rule (Q := fun layer _ flag t w' => .born x ∈ h ∧ ((births h).count x ≤ 1 → ∃ out',
      (flag = false → layer.Flowing whole (Refused (lastVerdict x w.memory.2)) (extra' ++ w.stack.parcels x ++ out')) ∧
        Asked whole x x R out' { w with stack := w.stack.away x } t w')) hA.toModest hm htop hs hc
    (fun hf => ?_) (fun e layer he hl => ?_) (fun layer reply t w₁ ha hran => ?_)
    fun layer reply t w₁ hran hs' hc' ha => ?_
  · rw [List.append_nil]
    refine ⟨hw.alive, fun hb => ?_, fun _ e l he => ?_⟩
    · rw [hborn hb, (List.append_eq_nil_iff.1 (hw.unborn hb)).2]
      rfl
    · rw [hf] at he
      cases he
  · have hb : .born x ∈ h := hw.alive (isAlive_iff.2 ⟨e, he⟩)
    by_cases hn : (births h).count x ≤ 1
    · have hsound : (w.stack.away x).Sound (x :: R) := hs.enter (isAlive_iff.2 ⟨e, he⟩)
      have hclear : (w.stack.away x).Clear R x := hc.shrinks (shrinks_away _ _) hs.toLinked hsound.toLinked
      exact (runMethod_tends (w := { w with stack := w.stack.away x }) hA hm htop hsound hclear
        (hhands layer (hw.flowing hn e layer he hl))).mono fun y t w' hran => ⟨hb, fun _ => hran⟩
    · exact fun _ _ _ => ⟨hb, fun hn' => absurd hn' hn⟩
  · obtain ⟨hb, hran⟩ := hran
    by_cases hn : (births h).count x ≤ 1
    · obtain ⟨out', hflow, hasked⟩ := hran hn
      refine ⟨fun _ => List.mem_append_left _ hb, fun hb' => absurd (List.mem_append_left _ hb) hb', fun _ e l he hl => ?_⟩
      change (Slots.update _ x _).find? x = some e at he
      rw [find?_update_self] at he
      obtain ⟨e₀, -, rfl⟩ := Option.map_eq_some_iff.1 he
      cases hl
      show Layer.Flowing whole (Refused (lastVerdict x w₁.memory.2)) (extra' ++ w₁.stack.parcels x) layer
      rw [(hasked.own rfl).1, (hasked.own rfl).2, ← List.append_assoc]
      exact hflow rfl
    · exact watched_of_crowded hb hn t
  · refine (hfree R x { w₁ with stack := w₁.stack.back x layer } hs' hc' ha).mono fun _ u w₂ hfreed => ?_
    exact watched_of_gone (List.mem_append_left _ hran.1) (isAlive_eq_false.1 hfreed.gone)

variable (hx : Tls.Exhausts b.diarist.engine whole) (hf : Tls.Fruitful b.diarist.engine)
include hx hf

/-- **A method that runs** leaves what is known of the connection, unless it aborts it, or tells its layer what has become
of data. -/
theorem withLayer_tends (hfree : Frees free) (hspares : Spares whole x free) (hm : m ≠ .dealloc)
    (htop : m.isLower = true → R = []) (hs : w.stack.Sound R) (hc : w.stack.Clear R id)
    (hown : id = x → m ≠ .op .abort ∧ ∀ v, m ≠ .settled v) :
    Ends (withLayer b.diarist A free id m) w fun _ t w' => Tended whole x R w t w' := by
  by_cases hid : id = x
  · subst hid
    obtain ⟨habort, hsettled⟩ := hown rfl
    have hwatched : ∀ extra h, Watched whole id extra h w →
        Ends (withLayer b.diarist A free id m) w fun _ t w' => Watched whole id extra (h ++ t) w' := fun extra h hw =>
      withLayer_tends_own hA hfree hm htop hs hc hw (fun hb => (List.append_eq_nil_iff.1 (hw.unborn hb)).1)
        fun layer hflow => hflow.hands hx hf habort hm hsettled
    intro r w' hrun
    refine ⟨fun hR => absurd hR hc.not_mem, fun _ extra h _ hw => hwatched extra h hw r w' hrun, ?_⟩
    exact (withLayer_ends hA.toModest hfree hm htop hs hc r w' hrun).pumping
  · exact withLayer_tends_other hA hspares hid hm htop hs hc

/-- **A layer is told what has become of the data** that was delivered. -/
theorem withLayer_settles (hfree : Frees free) (hs : w.stack.Sound []) {d : Bytes} {v : Outcome}
    (hw : Watched whole x [d] h w) (hv : ∀ f, v = .error f → Refused (lastVerdict x w.memory.2) d) :
    Ends (withLayer b.diarist A free x (.settled v)) w fun _ t w' => Watched whole x [] (h ++ t) w' :=
  withLayer_tends_own hA hfree (by simp) (fun _ => rfl) hs (clear_nil _ _) hw (fun _ => rfl)
    fun layer hflow => hflow.settled hx hf hv

end

/-! ## Connections that go -/

section

variable {A : Answers G.diarist}

/-- A layer that says farewell does nothing to a connection. -/
theorem still_undisturbed {α : Type} {p : Program (Layer.io G.diarist) α} (hp : p.Still) :
    Ends ((p.run (answerLayer b.diarist A id)).run false) w fun _ _ w' => Undisturbed x w w' := by
  induction p generalizing w with
  | done a => exact (ends_run_pure a).2 (.refl x w)
  | ask r next ih =>
    rw [Program.run_ask]
    refine (ends_run_bind _ _).2 ?_
    cases r with
    | pcb p o =>
      show Ends (lift ((monadLift (performPcb b.diarist p o) : Stack.Running G.diarist o.Reply).run false)) w _
      rw [ends_lift, Stack.ends_run_lift]
      exact (performPcb_quiet p o).mono fun r w' h => (ih r (hp r)).mono fun _ _ _ hu => h.undisturbed.trans hu
    | note n =>
      show Ends (lift ((monadLift (note b.diarist n) : Stack.Running G.diarist Unit).run false)) w _
      rw [ends_lift, Stack.ends_run_lift]
      exact (note_quiet n).mono fun _ w' h => (ih () hp).mono fun _ _ _ hu => h.undisturbed.trans hu
    | _ => cases hp

variable [IsEmpty G.Layer]

theorem dealloc_verdict (id : Handle) : Ends (dealloc b.diarist A id) w fun _ _ w' =>
    lastVerdict x w'.memory.2 = lastVerdict x w.memory.2 := by
  unfold dealloc
  simp only [ends_bind, ends_lift, ends_lookup]
  split
  · exact (ends_pure _).2 rfl
  · rename_i layer hl
    simp only [ends_bind, ends_lift, ends_modifySlots]
    have hstill : ∀ {α : Type} {p : Program (Layer.io G.diarist) α} (w₁ : World G.diarist), p.Still →
        w₁.memory = w.memory → Ends ((p.run (answerLayer b.diarist A id)).run false) w₁ fun _ _ w' =>
          lastVerdict x w'.memory.2 = lastVerdict x w.memory.2 := fun w₁ hp hm =>
      (still_undisturbed hp).mono fun _ _ w' hu => by rw [← hm]; exact hu.verdict
    cases layer with
    | plain l => exact ends_run_map (hstill _ (Plain.dealloc_still id l) rfl)
    | secure l => exact ends_run_map (hstill _ (Secure.dealloc_still b.engine id l) rfl)
    | passthrough name => exact ends_run_map (hstill _ (Layer.forward_dealloc_still ()) rfl)
    | custom l => exact isEmptyElim l

omit [IsEmpty G.Layer] in
/-- Another connection is taken out of its slot. -/
theorem bidden_undisturbed {e : Entry G.diarist} (hs : w.stack.Sound R) (he : w.stack.find? id = some e) (hid : id ≠ x)
    (hw : w'.stack = w.stack.bidden id e) (hv : lastVerdict x w'.memory.2 = lastVerdict x w.memory.2) :
    Undisturbed x w w' := by
  have hlinked : (w.stack.update id fun e => { e with layer := none }).Linked :=
    hs.toLinked.update (fun _ _ => rfl) fun _ _ => rfl
  have he₁ : (w.stack.update id fun e => { e with layer := none }).find? id = some { e with layer := none } := by
    rw [find?_update_self, he]
    rfl
  obtain ⟨hqueue, hpumping, -⟩ := release_frame (w.stack.update id fun e => { e with layer := none }) id
    { e with layer := none }
  refine ⟨?_, hv, fun ha => ?_, fun e' l he' hl => ?_, ?_⟩
  · rw [hw]
    exact parcels_congr hqueue
  · rw [hw, bidden, hlinked.isAlive_release he₁, Bool.and_eq_true, isAlive_update] at ha
    exact ha.1
  · rw [hw, bidden, hlinked.find?_release he₁, if_neg (Ne.symm hid), find?_update_of_ne (Ne.symm hid)] at he'
    split at he'
    · obtain ⟨e₀, he₀, rfl⟩ := Option.map_eq_some_iff.1 he'
      exact ⟨e₀, he₀, hl⟩
    · split at he'
      · obtain ⟨e₀, he₀, rfl⟩ := Option.map_eq_some_iff.1 he'
        exact ⟨e₀, he₀, hl⟩
      · exact ⟨e', he', hl⟩
  · rw [hw]
    exact hpumping

/-- **A connection that is freed** is the one that is watched, or that one is not concerned unless it stands below. -/
theorem freeEntry_spares (hA : Tends whole x A) (k : Nat) : Spares whole x (freeEntry b.diarist A k) := by
  induction k with
  | zero =>
    intro R id w hs hc ha
    unfold freeEntry
    simp
  | succ k ih =>
    intro R id w hs hc ha
    have hfrees := freeEntry_frees (b := b.diarist) hA.toModest
    by_cases hid : id = x
    · subst hid
      exact (hfrees (k + 1) R id w hs hc ha).mono fun _ t w' h => .of_gone hc.not_mem ha h.gone h.shrinks.pumping
    · obtain ⟨e, he⟩ := isAlive_iff.1 ha
      refine freeEntry_rule (P := fun m => lastVerdict x m.2 = lastVerdict x w.memory.2) hs hc he (dealloc_verdict id) (fun w₁ hv hi hw₁ n => ?_)
        fun i w₁ hv hi hs₁ hc₁ ha₁ hw₁ n => ?_
      · have hu := bidden_undisturbed hs he hid hw₁ hv
        exact (hu.trans (.noted n)).tended _
      · have hu := bidden_undisturbed hs he hid hw₁ hv
        by_cases hix : i = x
        · subst hix
          refine (abortBelow_ends hA.toModest (hfrees k) n hs₁ hc₁ ha₁).mono ?_
          rintro _ u w₂ ⟨-, hsh, -, hgone⟩
          exact .of_gone hc₁.not_mem (hu.alive ha₁) hgone (hsh.pumping.trans hu.pumping)
        · refine (ends_bind _ _).2 (((withLayer_tends_other hA ih hix (by simp) (by simp [Method.isLower]) hs₁ hc₁).and
            (withLayer_ends hA.toModest (hfrees k) (by simp) (by simp [Method.isLower]) hs₁ hc₁)).mono ?_)
          rintro _ t w₂ ⟨htended, hhandled⟩
          have hc₂ := hc₁.shrinks (hhandled.shrinks rfl) hs₁.toLinked hhandled.sound.toLinked
          refine (ends_bind _ _).2 ((ih R i w₂ hhandled.sound hc₂ ((hhandled.aborted rfl).trans ha₁)).mono ?_)
          intro _ u w₃ htended'
          rw [ends_lift]
          refine (note_quiet n).mono fun _ w₄ hn => ?_
          have hall := (hu.tended [.freed id]).trans (htended.trans (htended'.trans (hn.undisturbed.tended [])))
          simpa using hall

end

end Recorded

end Conduit
