import Conduit.Proofs.Stack.Rests
import Conduit.Proofs.Stack.Upheld
import Conduit.Proofs.Stack.Working

/-!
# What a connection has registered

While events are delivered no other callback is called. What a connection has registered for a kind of event stays as it
is until somebody registers something else, clears its callbacks, or the connection goes; whatever else is asked
meanwhile, of this connection or of others, leaves it alone.

* `Slots.shelf?`: what a connection has registered, and how often its callbacks were cleared.
* `Slots.Leaves`: a change of the slots that leaves it alone.
* `Req.change`: what a request changes of it.
* `Recorded.exec_shelved`: **a request that changes nothing of it leaves it alone**, unless the connection goes.
-/

namespace Conduit

open Exec Stack Slots Mark

variable {H : Host} {b : Behaviour H} {w : World H} {id x y : Handle} {kind : CallbackKind} {α β : Type}

/-! ## Slots -/

namespace Slots

variable {s s' s'' : Slots H} {e : Entry H} {f : Entry H → Entry H}

/-- What a connection has registered for a kind of event, and how often its callbacks were cleared. -/
def shelf? (s : Slots H) (id : Handle) (kind : CallbackKind) : Option (Option H.Code × Nat) :=
  (s.find? id).map fun e => (e.callbacks.get kind, e.epoch)

theorem isAlive_of_shelf? {c : Option H.Code × Nat} (h : s.shelf? id kind = some c) : s.isAlive id = true := by
  obtain ⟨e, he, -⟩ := Option.map_eq_some_iff.1 h
  exact isAlive_iff.2 ⟨e, he⟩

/-- The slots are kept as they should be, and what a connection that is there has registered stays the same. -/
def Leaves (id : Handle) (kind : CallbackKind) (s s' : Slots H) : Prop :=
  s.Counted → s.isAlive id = true →
    s'.Counted ∧ s'.pumping = s.pumping ∧ s'.shelf? id kind = s.shelf? id kind

theorem Leaves.refl (s : Slots H) : s.Leaves id kind s := fun h _ => ⟨h, rfl, rfl⟩

theorem Leaves.trans (h : s.Leaves id kind s') (h' : s'.Leaves id kind s'') : s.Leaves id kind s'' := by
  intro hs ha
  obtain ⟨hs', hp', hc'⟩ := h hs ha
  obtain ⟨e, he⟩ := isAlive_iff.1 ha
  have hshelf : s'.shelf? id kind = some (e.callbacks.get kind, e.epoch) := by
    rw [hc']
    unfold shelf?
    rw [he]
    rfl
  obtain ⟨hs'', hp'', hc''⟩ := h' hs' (isAlive_of_shelf? hshelf)
  exact ⟨hs'', hp''.trans hp', hc''.trans hc'⟩

/-- Another connection is changed, or this one in other respects. -/
theorem leaves_update (hf : x = id → ∀ e, (f e).callbacks.get kind = e.callbacks.get kind ∧ (f e).epoch = e.epoch) :
    s.Leaves id kind (s.update x f) := by
  intro hs _
  refine ⟨hs.update, rfl, ?_⟩
  unfold shelf?
  rw [find?_update]
  split
  · rename_i hx
    subst hx
    cases s.find? id with
    | none => rfl
    | some e =>
      obtain ⟨hget, hepoch⟩ := hf rfl e
      simp only [Option.map_some, hget, hepoch]
  · rfl

/-- The counters change, or the events that wait. -/
theorem leaves_same (hslots : s'.slots = s.slots) (hfree : s'.free = s.free) (hlive : s'.live = s.live)
    (hp : s'.pumping = s.pumping) : s.Leaves id kind s' := by
  intro hs _
  refine ⟨hs.of_same hslots hfree hlive, hp, ?_⟩
  unfold shelf?
  rw [find?_congr hslots]

theorem leaves_depth (d : Nat) : s.Leaves id kind { s with depth := d } := leaves_same rfl rfl rfl rfl

/-- A layer is taken out of its slot. -/
theorem leaves_away (d : Nat) :
    s.Leaves id kind { s.update x fun e => { e with layer := none } with depth := d } := by
  have haway : s.Leaves id kind (s.update x fun e => { e with layer := none }) := leaves_update fun _ _ => ⟨rfl, rfl⟩
  exact haway.trans (leaves_depth d)

theorem leaves_link (y : Handle) : s.Leaves id kind (s.link x y) := by
  have habove : s.Leaves id kind (s.update y fun e => { e with inner := some x }) := leaves_update fun _ _ => ⟨rfl, rfl⟩
  exact habove.trans (leaves_update fun _ _ => ⟨rfl, rfl⟩)

theorem leaves_insert (name : String) (layer : Layer H) : s.Leaves id kind (s.insert name layer) := by
  intro hs ha
  obtain ⟨e, he⟩ := isAlive_iff.1 ha
  refine ⟨hs.insert, (Stack.insert_frame s name layer).1.pumping, ?_⟩
  have hne : id ≠ s.nextHandle := fun hc => by
    rw [hc, find?_nextHandle hs] at he
    cases he
  unfold shelf?
  rw [find?_insert hs, if_neg hne]

/-- Another connection goes. -/
theorem leaves_vacate (hx : s.find? x = some e) (hne : id ≠ x) : s.Leaves id kind (s.vacate x) := by
  intro hs _
  refine ⟨hs.vacate hx, rfl, ?_⟩
  unfold shelf?
  rw [find?_vacate hx, if_neg hne]

/-- An event takes along the callback for the end of its source at most. -/
theorem leaves_enqueue (hkind : kind ≠ .err) (e : Event) : s.Leaves id kind (s.enqueue x e) := by
  unfold enqueue
  split
  · split
    · exact .refl s
    · split
      · exact leaves_same rfl rfl rfl rfl
      · have htaken : s.Leaves id kind (s.takeCallback x .err) :=
          leaves_update fun _ e => ⟨(Callbacks.get_set _ _ _ _).trans (if_neg hkind), rfl⟩
        exact htaken.trans (leaves_same rfl rfl rfl rfl)
  · exact leaves_same rfl rfl rfl rfl

end Slots

/-! ## Requests -/

/-- What is changed of what a connection has registered. -/
inductive Change (C : Type)
  | registered (kind : CallbackKind) (code : C)
  | cleared
  deriving DecidableEq

/-- What a request changes of what a connection has registered. -/
def Stack.Req.change (id : Handle) : Req H → Option (Change H.Code)
  | .register x kind code => if x = id then some (.registered kind code) else none
  | .clearCallbacks x => if x = id then some .cleared else none
  | _ => none

/-- A request of a layer of the application's own that changes nothing of what a connection has registered. -/
def Layer.Spares (id : Handle) : (Layer.customIo H).Req → Prop
  | .inl _ => True
  | .inr r => r.change id = none

/-- Layers of the application's own change nothing of what a connection has registered. -/
def Behaviour.Spares (b : Behaviour H) (id : Handle) : Prop := ∀ l me m, (b.layer l me m).Asks (Layer.Spares id)

namespace Recorded

variable {h t : List (Mark H)} {c : Option H.Code × Nat}

/-- Events are being delivered, and a connection has registered `c`; or it has gone. -/
def Shelved (id : Handle) (kind : CallbackKind) (c : Option H.Code × Nat) (h : List (Mark H)) (w : World H) : Prop :=
  .freed id ∈ h ∨ (w.stack.Counted ∧ w.stack.pumping = true ∧ w.stack.shelf? id kind = some c)

/-- Once a connection has gone, nothing is to be shown. -/
theorem upholds_shelved {x : Recorded H α}
    (hx : ∀ h w, w.stack.Counted → w.stack.pumping = true → w.stack.shelf? id kind = some c →
      Ends x w fun _ t w' => Shelved id kind c (h ++ t) w') : Upholds (Shelved id kind c) x := by
  intro h w hj
  rcases hj with hgone | ⟨hs, hp, hc⟩
  · exact fun _ _ _ => .inl (List.mem_append_left _ hgone)
  · exact hx h w hs hp hc

theorem Shelved.leaves {w' : World H} (hl : w.stack.Leaves id kind w'.stack) (hs : w.stack.Counted)
    (hp : w.stack.pumping = true) (hc : w.stack.shelf? id kind = some c) : Shelved id kind c h w' := by
  obtain ⟨hs', hp', hc'⟩ := hl hs (isAlive_of_shelf? hc)
  exact .inr ⟨hs', hp'.trans hp, hc'.trans hc⟩

theorem shelved_record (t : List (Mark H)) : Upholds (Shelved id kind c) (record t) :=
  upholds_shelved fun _ _ hs hp hc => (ends_record _).2 (.inr ⟨hs, hp, hc⟩)

theorem shelved_modifySlots {f : Slots H → Slots H} (hf : ∀ s : Slots H, s.Leaves id kind (f s)) :
    Upholds (Shelved id kind c) (lift (modifySlots f)) := by
  refine upholds_shelved fun h w hs hp hc => ?_
  rw [ends_lift, ends_modifySlots]
  exact Shelved.leaves (hf _) hs hp hc

/-- What does not touch the slots. -/
theorem shelved_lift {x : Exec H α} (hx : ∀ w, Exec.Ends x w fun _ w' => w'.stack = w.stack) :
    Upholds (Shelved id kind c) (lift x) := by
  refine upholds_shelved fun h w hs hp hc => ?_
  refine (ends_lift _).2 ((hx w).mono fun _ w' hw' => ?_)
  refine Shelved.leaves ?_ hs hp hc
  rw [hw']
  exact .refl _

theorem shelved_note (n : Note) : Upholds (Shelved id kind c) (lift (Stack.note b n)) :=
  shelved_lift fun _ => (ends_note n).2 rfl

theorem shelved_performPcb (p : PcbRef H.Pcb) (o : PcbOp) : Upholds (Shelved id kind c) (lift (performPcb b p o)) :=
  shelved_lift fun _ => ends_performPcb p o

theorem shelved_enqueue (hkind : kind ≠ .err) (e : Event) : Upholds (Shelved id kind c) (enqueue (H := H) x e) :=
  upholds_getSlots fun h w hj =>
    (shelved_record _).bind (fun _ => shelved_modifySlots fun _ => leaves_enqueue hkind e) h w hj

theorem shelved_insert (layer : Layer H) : Upholds (Shelved id kind c) (insert b layer) := by
  refine upholds_getSlots fun h w hj => (shelved_record _).bind (fun _ => ?_) h w hj
  refine upholds_shelved fun h w hs hp hc => ?_
  rw [ends_lift]
  unfold Stack.insert
  rw [Exec.ends_bind, ends_getSlots]
  dsimp only
  rw [Exec.ends_bind, ends_modifySlots, Exec.ends_bind, ends_note, Exec.ends_pure]
  exact Shelved.leaves (leaves_insert _ _) hs hp hc

theorem shelved_openPcb (p : PcbRef H.Pcb) : Upholds (Shelved id kind c) (openPcb b p) :=
  upholds_getSlots fun h w hj => (shelved_performPcb p _).bind (fun _ => shelved_insert _) h w hj

theorem shelved_wrap (inner : Handle) (layer : Layer H) : Upholds (Shelved id kind c) (wrap b inner layer) := by
  refine upholds_lookup fun e => ?_
  split
  · exact upholds_pure _
  · split
    · exact upholds_pure _
    · refine (shelved_insert layer).bind fun outer => ?_
      exact (shelved_modifySlots fun _ => leaves_link outer).bind fun _ => (shelved_note _).bind fun _ => upholds_pure _

/-! ## A connection that goes -/

/-- A connection is there, or it has gone. -/
def Lingers (id : Handle) (h : List (Mark H)) (w : World H) : Prop :=
  .freed id ∈ h ∨ (w.stack.Counted ∧ w.stack.isAlive id = true)

theorem steady_lingers (b : Behaviour H) (id : Handle) : Steady b (Lingers id) := by
  refine ⟨?_, ?_, ?_, ?_, fun h w n hj => hj, fun h w p o hj => hj⟩
  · rintro h w w' (hm | ⟨hs, ha⟩) hsettled -
    · exact .inl hm
    · refine .inr ⟨hsettled.counted hs, ?_⟩
      rw [isAlive_iff_tenants, hsettled.tenants]
      exact isAlive_iff_tenants.1 ha
  · rintro h t w - - (hm | hj)
    · exact .inl (List.mem_append_left _ hm)
    · exact .inr hj
  · rintro h w name layer (hm | ⟨hs, ha⟩)
    · exact .inl (List.mem_append_left _ hm)
    · obtain ⟨e, he⟩ := isAlive_iff.1 ha
      have hne : id ≠ w.stack.nextHandle := fun hc => by
        rw [hc, find?_nextHandle hs] at he
        cases he
      refine .inr ⟨hs.insert, isAlive_iff.2 ⟨e, ?_⟩⟩
      rw [find?_insert hs, if_neg hne, he]
  · rintro h w x (hm | ⟨hs, ha⟩) hx
    · exact .inl (List.mem_append_left _ hm)
    · obtain ⟨e, he⟩ := isAlive_iff.1 hx
      by_cases hid : id = x
      · subst hid
        exact .inl (List.mem_append_right _ List.mem_cons_self)
      · obtain ⟨e', he'⟩ := isAlive_iff.1 ha
        refine .inr ⟨hs.vacate he, isAlive_iff.2 ⟨e', ?_⟩⟩
        rw [find?_vacate he, if_neg hid, he']

/-- A connection that is freed has gone. -/
theorem freeEntry_gone {A : Answers H} (hA : Upheld b (Lingers id) A) (k : Nat) (hl : Lingers id h w) :
    Ends (freeEntry b A k id) w fun _ t _ => .freed id ∈ h ++ t := by
  cases k with
  | zero => exact (ends_lift _).2 (ends_throw _)
  | succ k =>
    refine (ends_bind _ _).2 ((dealloc_upholds (steady_lingers b id) hA id h w hl).mono fun _ t w' hl' => ?_)
    rw [ends_bind, ends_lift, ends_getSlots, ends_bind, ends_record]
    rcases hl' with hm | ⟨-, ha⟩
    · intro a w'' _
      show Mark.freed id ∈ h ++ (t ++ _)
      rw [← List.append_assoc]
      exact List.mem_append_left _ hm
    · unfold leaving
      rw [if_pos ha]
      exact fun a w'' _ => by simp

/-! ## Layers -/

/-- What is asked while a layer runs leaves `c` alone. -/
structure Sparing (id : Handle) (kind : CallbackKind) (c : Option H.Code × Nat) (A : Answers H) : Prop where
  request : ∀ r, r.change id = none → Upholds (Shelved id kind c) (A r)

variable {A : Answers H} (hkind : kind ≠ .err) (hA : Sparing id kind c A)
include hkind hA

theorem answerLayer_shelved (me : Handle) (r : Layer.Req H) (flag : Bool) :
    Upholds (Shelved id kind c) ((answerLayer b A me r).run flag) := by
  cases r with
  | ask x o => exact upholds_run_lift (hA.request (.ask x o) rfl)
  | cover inner l => exact upholds_run_lift (hA.request (.wrap inner (.secure l)) rfl)
  | emit e => exact upholds_run_lift (shelved_enqueue hkind e)
  | fail reason =>
    exact upholds_run_bind (fun _ => upholds_run_lift (shelved_enqueue hkind _)) fun _ _ => upholds_pure _
  | inner | pollInterval =>
    refine shelved_lift fun w => ?_
    exact (Stack.ends_run_bind _ _).2 ((Stack.ends_run_lift _).2 ((ends_lookup _).2 ((Stack.ends_run_pure _).2 rfl)))
  | note n => exact shelved_lift fun w => (Stack.ends_run_lift _).2 ((ends_note n).2 rfl)
  | pcb p o => exact shelved_lift fun w => (Stack.ends_run_lift _).2 (ends_performPcb p o)
  | newEngine config name => exact shelved_lift fun w => (Stack.ends_run_lift _).2 (ends_newEngine config name)
  | release | shared | setShared v => exact shelved_lift fun w => (Exec.ends_pure _).2 rfl

theorem custom_shelved (me : Handle) {p : Layer.CustomAct H α}
    (hp : p.Asks (Layer.Spares id)) : ∀ flag, Upholds (Shelved id kind c) ((p.run (answerCustom b A me)).run flag) := by
  induction p with
  | done a => exact fun flag => upholds_pure _
  | ask r next ih =>
    refine fun flag => upholds_run_bind (fun flag => ?_) fun a => ih a (hp.2 a)
    cases r with
    | inl r => exact answerLayer_shelved hkind hA me r flag
    | inr r => exact upholds_run_lift (hA.request r hp.1)

variable (hb : b.Spares id)
include hb

theorem runMethod_shelved (me : Handle) (m : Method) (layer : Layer H) (flag : Bool) :
    Upholds (Shelved id kind c) ((runMethod b A me m layer).run flag) := by
  have hprogram : ∀ {γ : Type} (p : Program (Layer.io H) γ) (flag : Bool),
      Upholds (Shelved id kind c) ((p.run (answerLayer b A me)).run flag) :=
    fun p => upholds_run_program (answerLayer_shelved hkind hA me) p
  cases layer with
  | plain l => exact upholds_run_bind (hprogram _) fun _ _ => upholds_pure _
  | secure l => exact upholds_run_bind (hprogram _) fun _ _ => upholds_pure _
  | passthrough name => exact upholds_run_bind (hprogram _) fun _ _ => upholds_pure _
  | custom l => exact upholds_run_bind (custom_shelved hkind hA me (hb l me m)) fun _ _ => upholds_pure _

theorem withLayer_shelved {free : Handle → Recorded H Unit} (hfree : ∀ x, Upholds (Shelved id kind c) (free x))
    (x : Handle) (m : Method) : Upholds (Shelved id kind c) (withLayer b A free x m) := by
  refine upholds_lookup fun e => ?_
  split
  · exact upholds_pure _
  · split
    · exact upholds_pure _
    · rename_i layer _
      refine Upholds.bind (shelved_modifySlots (by exact fun s => leaves_away (s.depth + 1))) fun _ => ?_
      refine (runMethod_shelved hkind hA hb x m layer false).bind fun r => (shelved_record _).bind fun _ => ?_
      refine Upholds.bind (shelved_modifySlots (by exact fun s => leaves_depth (s.depth - 1))) fun _ => ?_
      refine upholds_getSlots fun h w hj => ?_
      split
      · refine Upholds.bind (shelved_modifySlots ?_) (fun _ => ?_) h w hj
        · exact fun s => leaves_update fun _ _ => ⟨rfl, rfl⟩
        · split
          · exact (hfree x).bind fun _ => upholds_pure _
          · exact upholds_pure _
      · exact Upholds.bind (shelved_note _) (fun _ => upholds_pure _) h w hj

theorem dealloc_shelved (x : Handle) : Upholds (Shelved id kind c) (dealloc b A x) := by
  refine upholds_lookup fun e => ?_
  split
  · exact upholds_pure _
  · rename_i layer _
    refine Upholds.bind (shelved_modifySlots (by exact fun s => leaves_away (s.depth + 1))) fun _ => ?_
    refine (runMethod_shelved hkind hA hb x .dealloc layer false).bind fun _ => ?_
    exact shelved_modifySlots fun s => leaves_depth (s.depth - 1)

/-- The connection below one that goes goes as well, if it is still there. -/
theorem freeBelow_shelved (hL : Upheld b (Lingers id) A) {k : Nat}
    (hfree : ∀ x, Upholds (Shelved id kind c) (freeEntry b A k x)) (x : Handle) (e : Entry H) :
    Upholds (Shelved id kind c) (match e.inner with
      | none => lift (Stack.note b (.trace "connection freed" [x.field, ("layer", e.name)]))
      | some inner => do
        if (← lift getSlots).outer? inner = some x then
          lift (modifySlots fun s => (s.update inner fun i => { i with outer := none }).clearCallbacks inner)
          let _ ← withLayer b A (freeEntry b A k) inner (.op .abort)
          freeEntry b A k inner
        lift (Stack.note b (.trace "connection freed" [x.field, ("layer", e.name)]))) := by
  split
  · exact shelved_note _
  · rename_i inner _
    refine upholds_getSlots fun h w hj => ?_
    split
    · by_cases hinner : inner = id
      · subst hinner
        -- its callbacks are cleared, but then it goes
        have hsteady := steady_lingers b inner
        rcases hj with hm | ⟨hs, -, hc⟩
        · exact fun _ _ _ => .inl (List.mem_append_left _ hm)
        rw [ends_bind, ends_lift, ends_modifySlots]
        refine (ends_bind _ _).2 (Ends.mono (withLayer_upholds hsteady hL (freeEntry_upholds hsteady hL k) inner
          (.op .abort) h _ (.inr ⟨hs.update.update, ?_⟩)) fun _ t w' hl => ?_)
        · rw [clearCallbacks, isAlive_update, isAlive_update]
          exact isAlive_of_shelf? hc
        · refine (ends_bind _ _).2 ((freeEntry_gone hL k hl).mono fun _ u w'' hm => ?_)
          exact fun _ _ _ => .inl (by simpa [← List.append_assoc] using List.mem_append_left _ hm)
      · have hother : ∀ (s : Slots H) f, s.Leaves id kind (s.update inner f) := fun s f =>
          leaves_update fun hc => absurd hc hinner
        refine Upholds.bind (shelved_modifySlots fun s => (hother s _).trans (hother _ _)) (fun _ => ?_) h w hj
        exact (withLayer_shelved hkind hA hb hfree inner _).bind fun _ => (hfree inner).bind fun _ => shelved_note _
    · exact shelved_note _ h w hj

theorem freeEntry_shelved (hL : Upheld b (Lingers id) A) (k : Nat) :
    ∀ x, Upholds (Shelved id kind c) (freeEntry b A k x) := by
  induction k with
  | zero => exact fun x => upholds_throw _
  | succ k ih =>
    intro x
    refine (dealloc_shelved hkind hA hb x).bind fun _ => ?_
    refine upholds_getSlots fun h w hj => ?_
    by_cases hx : x = id
    · subst hx
      rcases hj with hm | ⟨-, -, hc⟩
      · exact fun _ _ _ => .inl (List.mem_append_left _ hm)
      · rw [ends_bind, ends_record]
        unfold leaving
        rw [if_pos (isAlive_of_shelf? hc)]
        exact fun _ _ _ => .inl (by simp)
    · refine Upholds.bind (shelved_record _) (fun _ => ?_) h w hj
      refine upholds_shelved fun h w hs hp hc => ?_
      rw [ends_bind, ends_lift, ends_lookup]
      cases he : w.stack.find? x with
      | none => exact upholds_pure _ h w (.inr ⟨hs, hp, hc⟩)
      | some e =>
        have hrest := freeBelow_shelved hkind hA hb hL ih x e
        have hj' : Shelved id kind c h { w with stack := w.stack.vacate x } :=
          Shelved.leaves (leaves_vacate he (Ne.symm hx)) hs hp hc
        dsimp only
        rw [ends_bind, ends_lift, ends_modifySlots]
        cases e.outer with
        | none => exact hrest _ _ hj'
        | some outer =>
          refine Upholds.bind (shelved_modifySlots ?_) (fun _ => hrest) _ _ hj'
          exact fun s => leaves_update fun _ o => by split <;> exact ⟨rfl, rfl⟩

/-! ## Requests -/

section

omit hkind hA hb

/-- Nothing is delivered while events are being delivered. -/
theorem pump_shelved (free : Handle → Recorded H Unit) (k : Nat) : Upholds (Shelved id kind c) (pump b A free k) := by
  refine upholds_shelved fun h w hs hp hc => ?_
  unfold pump
  rw [ends_bind, ends_lift, ends_getSlots, hp, Bool.or_true, if_pos rfl]
  exact upholds_pure _ h w (.inr ⟨hs, hp, hc⟩)

end

variable {free : Handle → Recorded H Unit} (hfree : ∀ x, Upholds (Shelved id kind c) (free x))
include hfree

theorem call_shelved (k : Nat) (x : Handle) (o : Op) : Upholds (Shelved id kind c) (call b A free k x o) := by
  refine (withLayer_shelved hkind hA hb hfree x _).bind fun r => (pump_shelved free k).bind fun _ => ?_
  split
  · exact upholds_pure _
  · exact upholds_pure _

theorem operate_shelved (k : Nat) (x : Handle) (o : Op) : Upholds (Shelved id kind c) (operate b A free k x o) := by
  unfold operate
  split
  · refine upholds_getSlots fun h w hj => ?_
    split
    · rw [ends_bind, ends_lift, ends_getSlots]
      refine Upholds.bind (shelved_record _) (fun _ => (shelved_note _).bind fun _ => ?_) h w hj
      refine (withLayer_shelved hkind hA hb hfree x _).bind fun _ => ?_
      refine upholds_getSlots fun h w hj => ?_
      split
      · exact Upholds.bind (shelved_enqueue hkind _) (fun _ => (hfree x).bind fun _ => pump_shelved free k) h w hj
      · exact pump_shelved free k h w hj
    · exact upholds_pure _ h w hj
  · refine upholds_getSlots fun h w hj => ?_
    split
    · refine Upholds.bind (shelved_modifySlots ?_) (fun _ => call_shelved hkind hA hb hfree k x _) h w hj
      exact fun s => leaves_update fun _ _ => ⟨rfl, rfl⟩
    · exact upholds_pure _ h w hj
  · exact (shelved_note _).bind fun _ => call_shelved hkind hA hb hfree k x _
  · exact call_shelved hkind hA hb hfree k x _

omit hkind hb hfree in
theorem dispatch_shelved (x : Handle) (a : Arrival H.Pcb) : Upholds (Shelved id kind c) (dispatch b A x a) := by
  have hask : ∀ y o, Upholds (Shelved id kind c) (A (.ask y o)) := fun y o => hA.request _ rfl
  cases a with
  | event e => exact hask x _
  | accepted p =>
    refine upholds_getSlots fun h w hj => ?_
    split
    · refine Upholds.bind (shelved_openPcb p) (fun new => (hask x _).bind fun v => ?_) h w hj
      split
      · exact upholds_pure _
      · exact (hask new _).bind fun _ => upholds_pure _
    · exact Upholds.bind (shelved_note _) (fun _ => (shelved_performPcb p _).bind fun _ => upholds_pure _) h w hj

omit hkind hb hfree in
theorem stepNet_shelved : Upholds (Shelved id kind c) (stepNet b A) := by
  have hmodify : ∀ {f : World H → World H}, (∀ w, (f w).stack = w.stack) →
      Upholds (Shelved id kind c) (lift (modify f) : Recorded H PUnit) := fun hs =>
    shelved_lift fun w => (Exec.ends_modify _).2 (hs w)
  have hnotes : ∀ ns, Upholds (Shelved id kind c) (lift (Stack.notes b ns)) := fun ns =>
    shelved_lift fun w => ends_notes ns fun _ => rfl
  refine Steady.get fun w₀ => ?_
  split
  · exact upholds_pure _
  · rename_i r _
    refine (hmodify (by exact fun _ => rfl)).bind fun _ => (hnotes _).bind fun _ => ?_
    dsimp only
    split
    · exact upholds_pure _
    · exact (dispatch_shelved hA _ _).bind fun _ => upholds_pure _
    · exact (shelved_performPcb _ _).bind fun _ => upholds_pure _
    · refine (hmodify (by exact fun _ => rfl)).bind fun _ => ?_
      split
      · exact upholds_pure _
      · exact (shelved_note _).bind fun _ => (dispatch_shelved hA _ _).bind fun _ => upholds_pure _
    · refine (dispatch_shelved hA _ _).bind fun v => ?_
      split
      · exact upholds_pure _
      · exact (shelved_note _).bind fun _ => upholds_pure _
    · exact (hmodify (by exact fun _ => rfl)).bind fun _ => upholds_pure _
    · exact upholds_pure _

omit hkind hb hfree in
theorem settleNet_shelved (k : Nat) : ∀ done, Upholds (Shelved id kind c) (settleNet b A k done) := by
  induction k with
  | zero => exact fun done => (shelved_note _).bind fun _ => upholds_pure _
  | succ k ih =>
    refine fun done => (hA.request .step rfl).bind fun more => ?_
    split
    · exact ih _
    · exact upholds_pure _

theorem answer_shelved (k : Nat) (r : Req H) (hr : r.change id = none) :
    Upholds (Shelved id kind c) (answer b A free k r) := by
  have hsame : ∀ {γ : Type} {x : Exec H γ}, (∀ w, Exec.Ends x w fun _ w' => w'.stack = w.stack) →
      Upholds (Shelved id kind c) (lift x) := fun hx => shelved_lift hx
  cases r with
  | ask x o => exact operate_shelved hkind hA hb hfree k x o
  | insert layer => exact shelved_insert layer
  | wrap inner layer => exact shelved_wrap inner layer
  | openPcb p => exact shelved_openPcb p
  | dispatch x a => exact dispatch_shelved hA x a
  | step => exact stepNet_shelved hA
  | settle => exact settleNet_shelved hA _ 0
  | tick =>
    refine Steady.get fun w₀ => ?_
    refine Upholds.bind (hsame (by exact fun w => (Exec.ends_modify _).2 rfl)) fun _ => ?_
    exact forM_upholds (fun x => (dispatch_shelved hA x _).bind fun _ => upholds_pure _) _
  | pcb p o => exact shelved_performPcb p o
  | note n => exact shelved_note n
  | newEngine config name => exact hsame fun _ => ends_newEngine config name
  | lookup x => exact hsame fun _ => (ends_lookup x).2 rfl
  | slots => exact hsame fun _ => ends_getSlots.2 rfl
  | setShared v | remember m => exact hsame fun _ => (Exec.ends_modify _).2 rfl
  | net | shared | «recall» | newPcb | split x sizes | failCloses x count =>
    exact hsame fun _ => (Exec.ends_pure _).2 rfl
  | clearCallbacks x =>
    have hx : x ≠ id := fun hc => by simp [Req.change, hc] at hr
    exact shelved_modifySlots fun s => leaves_update fun hc => absurd hc hx
  | register x kind' code =>
    have hx : x ≠ id := fun hc => by simp [Req.change, hc] at hr
    refine upholds_shelved fun h w hs hp hc => ?_
    refine (ends_lift _).2 ?_
    simp only [Stack.answer, Exec.ends_bind, ends_getSlots]
    split
    · rw [Exec.ends_bind, ends_modifySlots, Exec.ends_pure]
      exact Shelved.leaves (leaves_update fun hc => absurd hc hx) hs hp hc
    · exact (Exec.ends_pure _).2 (.inr ⟨hs, hp, hc⟩)
  | modifyLayer x f =>
    refine upholds_shelved fun h w hs hp hc => ?_
    refine (ends_lift _).2 ?_
    simp only [Stack.answer, Exec.ends_bind, ends_lookup]
    split
    · rw [Exec.ends_bind, ends_modifySlots, Exec.ends_pure]
      exact Shelved.leaves (leaves_update fun _ _ => ⟨rfl, rfl⟩) hs hp hc
    · exact (Exec.ends_pure _).2 (.inr ⟨hs, hp, hc⟩)

omit hA hfree in
/-- **While events are delivered, what a connection has registered stays as it is**, whatever is asked that does not
change it, unless the connection goes. -/
theorem exec_shelved (k : Nat) : Sparing id kind c (exec b k) := by
  induction k with
  | zero => exact ⟨fun r _ => upholds_throw _⟩
  | succ k ih =>
    have hL : Upheld b (Lingers id) (exec b k) := upheld_of_any (fun _ _ _ hl => hl) (steady_lingers b id) k
    exact ⟨fun r hr => answer_shelved hkind ih hb (freeEntry_shelved hkind ih hb hL k) k r hr⟩

end Recorded

end Conduit
