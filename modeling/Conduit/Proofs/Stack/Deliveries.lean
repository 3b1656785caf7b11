import Conduit.Proofs.Stack.Flowing
import Conduit.Proofs.Stack.Requests
import Conduit.Proofs.Stack.Upheld

/-!
# Deliveries to a connection that is watched

Data that waits is delivered, and whoever gets it says what has become of it. The layer that has handed it up is told
so, whatever the application does in between.

* `Recorded.Serves`: how requests are answered, those of the stack and those of an application.
* `Recorded.Passed`: what happens while events are being delivered.
* `Recorded.deliver_tends`: **an event that is delivered** is awaited no more.
* `Recorded.drain_tends`: so are all that wait.
-/

namespace Conduit

open Exec

variable {G : Host} {whole : G.diarist.Engine → Bytes → Prop} {x : Handle}

namespace Recorded

open Stack Slots Mark

variable {b : Behaviour G.diarist} {w w' w'' : World G.diarist} {t u h : List (Mark G.diarist)} {id : Handle}

/-! ## Requests -/

/-- A request that brings in no layer but a new one. -/
def Brings : Req G.diarist → Prop
  | .insert layer | .wrap _ layer => layer.New
  | _ => True

/-- No event of the stack goes astray. -/
def Routes (_ : List (Mark G.diarist)) (w : World G.diarist) : Prop := w.stack.Routed

theorem steady_routes (b : Behaviour G.diarist) : Steady b Routes where
  still _ _ _ h hs _ := hs.routed h
  marks _ _ _ _ _ h := h
  born _ w name layer h := by
    have hq : (w.stack.insert name layer).queue = w.stack.queue := by
      unfold Slots.insert
      split <;> rfl
    intro q hmem
    exact h q (hq ▸ hmem)
  freed _ _ _ h _ := h
  note _ _ _ h := h
  pcb _ _ _ _ h := h

/-- How requests are answered: they leave what is known of the connection, and an application is told what it remembers. -/
structure Serves (whole : G.diarist.Engine → Bytes → Prop) (x : Handle) (A : Answers G.diarist) : Prop
    extends Tends whole x A, Orderly A where
  asked : ∀ r w, w.stack.Idle → w.stack.Routed → Brings r → Heedless r →
    Ends (A r) w fun _ t w' => Tended whole x [] w t w'
  routes : ∀ r, Upholds Routes (A r)
  recalls : ∀ w, Ends (A .recall) w fun m t w' => m = w.memory ∧ t = [] ∧ w' = w
  remembers : ∀ m w, Ends (A (.remember m)) w fun _ t w' => t = [] ∧ w' = { w with memory := m }

/-- What an application does, from the outside or while events are being delivered. -/
structure Served (whole : G.diarist.Engine → Bytes → Prop) (x : Handle) (w : World G.diarist)
    (t : List (Mark G.diarist)) (w' : World G.diarist) : Prop where
  carried : Carried [] w.stack t w'.stack
  tended : Tended whole x [] w t w'
  routed : w'.stack.Routed

theorem Served.refl (hi : w.stack.Idle) (hr : w.stack.Routed) : Served whole x w [] w := ⟨.refl hi, .refl, hr⟩

theorem Served.trans (h : Served whole x w t w') (h' : Served whole x w' u w'') : Served whole x w (t ++ u) w'' :=
  ⟨h.carried.trans h'.carried, h.tended.trans h'.tended, h'.routed⟩

/-- The application remembers something else, and enters nothing about the connection. -/
theorem Served.remembered (hi : w.stack.Idle) (hr : w.stack.Routed) {m : G.diarist.Memory}
    (hm : lastVerdict x m.2 = lastVerdict x w.memory.2) : Served whole x w [] { w with memory := m } :=
  have hu : Undisturbed x w { w with memory := m } := ⟨rfl, hm, fun ha => ha, fun e' _ he hl => ⟨e', he, hl⟩, rfl⟩
  ⟨.refl hi, hu.tended [], hr⟩

/-- What is entered of a call when its verdict is given. -/
def entries : Call → Outcome → List Deed
  | .recv me data, v => [.got me data v]
  | _, _ => []

section

variable {A : Answers G.diarist} (hA : Serves whole x A)
include hA

theorem Serves.served {r : Req G.diarist} (hi : w.stack.Idle) (hr : w.stack.Routed) (hb : Brings r) (hh : Heedless r) :
    Ends (A r) w fun _ t w' => Served whole x w t w' :=
  (((hA.top r w hi).and (hA.asked r w hi hr hb hh)).and (hA.routes r [] w hr)).mono
    fun _ _ _ h => ⟨h.1.1, h.1.2, h.2⟩

/-- An operation on a connection. -/
theorem Serves.asks (hi : w.stack.Idle) (hr : w.stack.Routed) (id : Handle) (o : Op) :
    Ends (A (.ask id o)) w fun _ t w' => Served whole x w t w' := hA.served hi hr trivial (by rintro m ⟨⟩)

theorem Serves.enters (d : Deed) : Ends ((enter d).run A) w fun _ t w' =>
    t = [] ∧ w' = { w with memory := (w.memory.1, w.memory.2 ++ [d]) } := by
  unfold enter
  rw [Program.run_ask]
  refine (ends_bind _ _).2 ((hA.recalls w).mono ?_)
  rintro m t w₁ ⟨rfl, rfl, rfl⟩
  rw [Program.run_ask]
  refine (ends_bind _ _).2 ((hA.remembers _ w₁).mono ?_)
  rintro _ t w₂ ⟨rfl, rfl⟩
  exact (ends_pure _).2 ⟨rfl, rfl⟩

/-- **A request of an application that keeps a diary.** -/
theorem Serves.noted {r : Req G.diarist} (hi : w.stack.Idle) (hr : w.stack.Routed) (hb : Brings r) :
    Ends ((noted r).run A) w fun _ t w' => Served whole x w t w' := by
  have hplain : Stack.noted r = .ask r .done → Heedless r →
      Ends ((Stack.noted r).run A) w fun _ t w' => Served whole x w t w' := by
    intro hn hh
    rw [hn, Program.run_ask]
    refine (ends_bind _ _).2 ((hA.served hi hr hb hh).mono fun y t w' h => (ends_pure _).2 ?_)
    rwa [List.append_nil]
  cases r with
  | remember m =>
    unfold Stack.noted
    rw [Program.run_ask]
    refine (ends_bind _ _).2 ((hA.recalls w).mono ?_)
    rintro old t w₁ ⟨rfl, rfl, rfl⟩
    rw [Program.run_ask]
    refine (ends_bind _ _).2 ((hA.remembers _ w₁).mono ?_)
    rintro _ t w₂ ⟨rfl, rfl⟩
    exact (ends_pure _).2 (.remembered hi hr rfl)
  | ask id o =>
    cases o with
    | write data flags =>
      unfold Stack.noted
      rw [Program.run_ask]
      refine (ends_bind _ _).2 ((hA.asks hi hr _ _).mono fun v t w₁ h => ?_)
      cases v with
      | error f =>
        refine (ends_pure _).2 ?_
        rwa [List.append_nil]
      | ok _ =>
        rw [Program.run_bind]
        refine (ends_bind _ _).2 ((hA.enters _).mono ?_)
        rintro _ t w₂ ⟨rfl, rfl⟩
        exact (ends_pure _).2 (h.trans (.remembered h.carried.idle h.routed (lastVerdict_of_none rfl _)))
    | _ => exact hplain rfl (by rintro m ⟨⟩)
  | _ => exact hplain rfl (by rintro m ⟨⟩)

/-- **What an application does that keeps a diary.** -/
theorem Serves.withDiary {α : Type} {p : Act G.diarist α} (hp : p.Asks Brings) (hi : w.stack.Idle)
    (hr : w.stack.Routed) : Ends ((Stack.withDiary p).run A) w fun _ t w' => Served whole x w t w' := by
  have hrun : (Stack.withDiary p).run A = p.run fun r => (Stack.noted r).run A := Program.run_run _ _ _
  rw [hrun]
  clear hrun
  induction p generalizing w with
  | done a => exact (ends_pure a).2 (.refl hi hr)
  | ask r next ih =>
    refine (ends_bind _ _).2 ((hA.noted hi hr hp.1).mono fun y t w₁ h => ?_)
    exact (ih y (hp.2 y) h.carried.idle h.routed).mono fun _ u w₂ h' => h.trans h'

/-- A callback does what the application does, and enters its verdict. -/
theorem Serves.verdict {p : Act G.diarist (G.Code × Outcome)} (hp : p.Asks Brings) (hi : w.stack.Idle)
    (hr : w.stack.Routed) (call : Call) : Ends ((withVerdict call p).run A) w fun r t w' => ∃ w₁,
      Served whole x w t w₁ ∧ w' = { w₁ with memory := (w₁.memory.1, w₁.memory.2 ++ entries call r.2) } := by
  unfold withVerdict
  rw [Program.run_bind]
  refine (ends_bind _ _).2 ((hA.withDiary hp hi hr).mono ?_)
  rintro ⟨code, v⟩ t w₁ h
  cases call with
  | recv me data =>
    dsimp only
    rw [Program.run_bind]
    refine (ends_bind _ _).2 ((hA.enters _).mono ?_)
    rintro _ u w₂ ⟨rfl, rfl⟩
    refine (ends_pure _).2 ⟨w₁, ?_, rfl⟩
    simpa using h
  | _ =>
    refine (ends_pure _).2 ⟨w₁, ?_, ?_⟩
    · rwa [List.append_nil]
    · simp [entries]

end

/-! ## Events -/

/-- What happens while events are being delivered. -/
structure Passed (whole : G.diarist.Engine → Bytes → Prop) (x : Handle) (w : World G.diarist)
    (t : List (Mark G.diarist)) (w' : World G.diarist) : Prop where
  sound : w'.stack.Sound []
  tended : Tended whole x [] w t w'
  routed : w'.stack.Routed

theorem Served.passed (h : Served whole x w t w') : Passed whole x w t w' := ⟨h.carried.sound, h.tended, h.routed⟩

theorem Passed.refl (hs : w.stack.Sound []) (hr : w.stack.Routed) : Passed whole x w [] w := ⟨hs, .refl, hr⟩

theorem Passed.trans (h : Passed whole x w t w') (h' : Passed whole x w' u w'') : Passed whole x w (t ++ u) w'' :=
  ⟨h'.sound, h.tended.trans h'.tended, h'.routed⟩

/-- An application may be served while events are being delivered. -/
theorem Passed.idle (h : Passed whole x w t w') (hp : w.stack.pumping = true) : w'.stack.Idle :=
  idle_of_pumping h.sound (h.tended.pumping.trans hp)

theorem Passed.noted (hs : w.stack.Sound []) (hr : w.stack.Routed) (n : Note) :
    Passed whole x w [] { w with memory := b.diarist.note n w.memory } :=
  ⟨hs, (Undisturbed.noted n).tended [], hr⟩

/-- Something is recorded. -/
theorem Passed.recorded (h : Passed whole x w [] w') (t : List (Mark G.diarist)) : Passed whole x w t w' :=
  ⟨h.sound, h.tended.trans ((Undisturbed.refl x w').tended t), h.routed⟩

theorem Passed.update {f : Entry G.diarist → Entry G.diarist} (hs : w.stack.Sound []) (hr : w.stack.Routed)
    (hi : ∀ e, (f e).inner = e.inner) (ho : ∀ e, (f e).outer = e.outer) (hl : ∀ e, (f e).layer = e.layer) :
    Passed whole x w [] { w with stack := w.stack.update id f } :=
  have hu : Undisturbed x w { w with stack := w.stack.update id f } := .update fun _ => hl
  ⟨hs.update hi ho hl, hu.tended [], hr⟩

/-- What frees a connection leaves what is known of the one that is watched. -/
structure Clears (whole : G.diarist.Engine → Bytes → Prop) (x : Handle) (free : Handle → Recorded G.diarist Unit) :
    Prop where
  frees : Frees free
  spares : Spares whole x free
  routes : ∀ id, Upholds Routes (free id)

section

variable {A : Answers G.diarist} {free : Handle → Recorded G.diarist Unit} [IsEmpty G.Layer] (hA : Serves whole x A)
include hA

theorem Serves.upheld : Upheld b.diarist Routes A :=
  ⟨fun _ _ => hA.routes _, fun _ _ => hA.routes _, hA.routes _, fun _ _ => upholds_program hA.routes _,
    fun l => isEmptyElim l⟩

theorem freeEntry_clears (k : Nat) : Clears whole x (freeEntry b.diarist A k) :=
  ⟨freeEntry_frees hA.toModest k, freeEntry_spares hA.toTends k, freeEntry_upholds (steady_routes b.diarist) hA.upheld k⟩

variable (hb : ∀ code call, (b.callback code call).Asks Brings) (hx : Tls.Exhausts b.diarist.engine whole)
  (hf : Tls.Fruitful b.diarist.engine) (hfree : Clears whole x free)

section

include hx hf hfree

/-- A method runs in answer to an event. -/
theorem withLayer_passes {m : Method} (hm : m ≠ .dealloc) (hs : w.stack.Sound []) (hr : w.stack.Routed)
    (hown : id = x → m ≠ .op .abort ∧ ∀ v, m ≠ .settled v) :
    Ends (withLayer b.diarist A free id m) w fun _ t w' => Passed whole x w t w' :=
  (((withLayer_ends hA.toModest hfree.frees hm (fun _ => rfl) hs (clear_nil _ _)).and
    (withLayer_tends hA.toTends hx hf hfree.frees hfree.spares hm (fun _ => rfl) hs (clear_nil _ _) hown)).and
    (withLayer_upholds (steady_routes b.diarist) hA.upheld hfree.routes id m [] w hr)).mono
    fun _ _ _ h => ⟨h.1.1.sound, h.1.2, h.2⟩

theorem settleRecv_passes {source : Handle} (v : Outcome) (hsource : source ≠ x) (hs : w.stack.Sound [])
    (hr : w.stack.Routed) : Ends (settleRecv b.diarist A free source v) w fun _ t w' => Passed whole x w t w' := by
  unfold settleRecv
  refine (ends_bind _ _).2 ((withLayer_passes hA hx hf hfree (by simp) hs hr fun hc => absurd hc hsource).mono ?_)
  intro _ t w' h
  rw [ends_pure, List.append_nil]
  exact h

/-- An event that is not data of the connection is handed to a layer. -/
theorem deliverToLayer_passes (outer : Handle) {source : Handle} {e : Event} (hsource : source = x → e.parcel = [])
    (hs : w.stack.Sound []) (hr : w.stack.Routed) (hp : w.stack.pumping = true) :
    Ends (deliverToLayer b.diarist A free outer source e) w fun _ t w' => Passed whole x w t w' := by
  unfold deliverToLayer
  refine (ends_bind _ _).2 ((withLayer_passes hA hx hf hfree (by simp) hs hr fun _ => ⟨by simp, by simp⟩).mono ?_)
  intro v t w' h
  -- whatever the layer above answers
  generalize (v.bind fun r => r : Outcome) = verdict
  dsimp only
  split
  · refine (ends_bind _ _).2 ?_
    rw [ends_lift, ends_note]
    have hn : ∀ n, Passed whole x w (t ++ []) { w' with memory := b.diarist.note n w'.memory } := fun n =>
      h.trans (.noted h.sound h.routed n)
    refine (hA.asks ((hn _).idle hp) (hn _).routed _ .abort).mono fun _ u w'' h' => ?_
    have hall := (hn _).trans h'.passed
    rwa [List.append_nil] at hall
  · rename_i data _
    have hne : source ≠ x := fun hc => by cases hsource hc
    exact (settleRecv_passes hA hx hf hfree _ hne h.sound h.routed).mono fun _ u w'' h' => h.trans h'
  · rw [ends_pure, List.append_nil]
    exact h

end

section

include hb

omit [IsEmpty G.Layer] in
/-- A callback that is called, and what the application does in it. Then its verdict is entered. -/
theorem callback_rule (me : Handle) (k : CallbackKind) (call : Call) {absent : Recorded G.diarist Outcome}
    (hs : w.stack.Sound []) (hr : w.stack.Routed) (hp : w.stack.pumping = true)
    {post : Outcome → List (Mark G.diarist) → World G.diarist → Prop} (habsent : Ends absent w post)
    (hcalled : ∀ v t w₁, Passed whole x w t w₁ → ∀ f : Entry G.diarist → Entry G.diarist,
      (∀ e, (f e).inner = e.inner ∧ (f e).outer = e.outer ∧ (f e).layer = e.layer) →
      post v t { w₁ with
        stack := w₁.stack.update me f, memory := (w₁.memory.1, w₁.memory.2 ++ entries call v) }) :
    Ends (callback b.diarist A me k call absent) w post := by
  unfold callback
  simp only [ends_bind, ends_lift, ends_lookup]
  cases hf : w.stack.find? me with
  | none => exact habsent
  | some e =>
    cases hk : e.callbacks.get k with
    | none =>
      simp only [hk]
      exact habsent
    | some code =>
      have htaken : Passed whole x w [] { w with stack := w.stack.takeCallback me k } :=
        .update hs hr (fun _ => rfl) (fun _ => rfl) fun _ => rfl
      simp only [hk, ends_bind, ends_lift, ends_modifySlots, ends_getSlots, ends_record]
      generalize Mark.called (H := G.diarist) me _ call = mark
      have hmark : Passed whole x w [mark] { w with stack := w.stack.takeCallback me k } := htaken.recorded _
      refine (hA.verdict (w := { w with stack := w.stack.takeCallback me k }) (hb code call) (hmark.idle hp) hmark.routed
        call).mono ?_
      rintro r t _ ⟨w₁, h, rfl⟩
      rw [ends_pure, List.append_nil, List.append_nil]
      refine hcalled r.2 _ w₁ (hmark.trans h.passed) _ fun e => ?_
      split <;> exact ⟨rfl, rfl, rfl⟩

omit [IsEmpty G.Layer] in
/-- A callback that is not called for data of the connection. -/
theorem callback_passes (me : Handle) (k : CallbackKind) (call : Call) {absent : Recorded G.diarist Outcome}
    (hs : w.stack.Sound []) (hr : w.stack.Routed) (hp : w.stack.pumping = true)
    (hcall : ∀ v, ∀ d ∈ entries call v, d.verdictOn x = none)
    (habsent : Ends absent w fun _ t w' => Passed whole x w t w') :
    Ends (callback b.diarist A me k call absent) w fun _ t w' => Passed whole x w t w' := by
  refine callback_rule hA hb me k call hs hr hp habsent fun v t w₁ h f hf => ?_
  have hupdate : Passed whole x w₁ [] { w₁ with stack := w₁.stack.update me f } :=
    .update h.sound h.routed (fun e => (hf e).1) (fun e => (hf e).2.1) fun e => (hf e).2.2
  have hentered : lastVerdict x (w₁.memory.2 ++ entries call v) = lastVerdict x w₁.memory.2 := by
    have hall := hcall v
    unfold entries at hall ⊢
    split
    · exact lastVerdict_of_none (hall _ (by simp)) _
    · rw [List.append_nil]
  have hu : Undisturbed x w₁ { w₁ with
      stack := w₁.stack.update me f, memory := (w₁.memory.1, w₁.memory.2 ++ entries call v) } :=
    (Undisturbed.update fun _ e => (hf e).2.2).trans
      (⟨rfl, hentered, fun ha => ha, fun e' _ he hl => ⟨e', he, hl⟩, rfl⟩)
  have hlast : Passed whole x w₁ [] { w₁ with
      stack := w₁.stack.update me f, memory := (w₁.memory.1, w₁.memory.2 ++ entries call v) } :=
    ⟨hupdate.sound, hu.tended [], hupdate.routed⟩
  have hall := h.trans hlast
  rwa [List.append_nil] at hall

omit [IsEmpty G.Layer] in
/-- **The callback for data of the connection** enters its verdict; where there is none, the data is acknowledged. -/
theorem callback_judges {d : Bytes} (hs : w.stack.Sound []) (hr : w.stack.Routed) (hp : w.stack.pumping = true)
    (hw : Watched whole x [d] h w) (n : Note) :
    Ends (callback b.diarist A x .recv (.recv x (some d)) do
      lift (note b.diarist n)
      A (.ask x (.recved d.length))
      pure (.ok ())) w fun v t w' =>
        w'.stack.Sound [] ∧ Watched whole x [d] (h ++ t) w' ∧ ∀ f, v = .error f → Refused (lastVerdict x w'.memory.2) d := by
  have hlive : w.stack.pumping = false → [d] = [] := fun hc => absurd (hp.symm.trans hc) (by simp)
  refine callback_rule hA hb x .recv (.recv x (some d)) hs hr hp ?_ fun v t w₁ h₁ f hf => ?_
  · refine (ends_bind _ _).2 ?_
    rw [ends_lift, ends_note]
    have hn : Passed whole x w [] { w with memory := b.diarist.note n w.memory } := .noted hs hr n
    refine (ends_bind _ _).2 ((hA.asks (hn.idle hp) hn.routed x (.recved d.length)).mono ?_)
    intro _ t w' h'
    have hall := hn.trans h'.passed
    rw [ends_pure]
    refine ⟨hall.sound, ?_, by simp⟩
    have hwatched := hall.tended.watched List.not_mem_nil [d] h hlive hw
    simpa using hwatched
  · have hwatched := h₁.tended.watched List.not_mem_nil [d] h hlive hw
    have hu : Undisturbed x w₁ { w₁ with stack := w₁.stack.update x f } := .update fun _ e => (hf e).2.2
    have hwatched' := hwatched.undisturbed hu []
    rw [List.append_nil] at hwatched'
    refine ⟨h₁.sound.update (fun e => (hf e).1) (fun e => (hf e).2.1) fun e => (hf e).2.2, ?_, fun g hg => ?_⟩
    · exact ⟨hwatched'.alive, hwatched'.unborn, fun hn e layer he hl => (hwatched'.flowing hn e layer he hl).owing (by simp)⟩
    · subst hg
      exact ⟨g, lastVerdict_got x _ d _⟩

end

section

include hb hx hf hfree

/-- An event that is not data of the connection is handed to the application. -/
theorem deliverToApp_passes {me : Handle} {e : Event} (hme : me = x → e.parcel = []) (hs : w.stack.Sound [])
    (hr : w.stack.Routed) (hp : w.stack.pumping = true) :
    Ends (deliverToApp b.diarist A free me e) w fun _ t w' => Passed whole x w t w' := by
  have hcall : ∀ (k : CallbackKind) (call : Call) (v : Outcome), (∀ v, ∀ d ∈ entries call v, d.verdictOn x = none) →
      Ends (do let _ ← callback b.diarist A me k call (pure v)) w fun _ t w' => Passed whole x w t w' := by
    intro k call v hcall
    refine (ends_bind _ _).2 ((callback_passes hA hb me k call hs hr hp hcall ((ends_pure v).2 (.refl hs hr))).mono ?_)
    intro _ t w' h
    rw [ends_pure, List.append_nil]
    exact h
  cases e with
  | accept new =>
    refine (ends_bind _ _).2 ((callback_passes hA hb me _ _ hs hr hp (by simp [entries])
      ((ends_pure _).2 (.refl hs hr))).mono ?_)
    intro v t w' h
    cases v with
    | ok _ =>
      rw [ends_pure, List.append_nil]
      exact h
    | error f =>
      refine (ends_bind _ _).2 ?_
      rw [ends_lift, ends_note]
      have hn : ∀ n, Passed whole x w (t ++ []) { w' with memory := b.diarist.note n w'.memory } := fun n =>
        h.trans (.noted h.sound h.routed n)
      refine (hA.asks ((hn _).idle hp) (hn _).routed new .abort).mono fun _ u w'' h' => ?_
      have hall := (hn _).trans h'.passed
      rwa [List.append_nil] at hall
  | recv data =>
    have hne : me ≠ x := fun hc => by cases hme hc
    refine (ends_bind _ _).2 ((callback_passes hA hb me _ _ hs hr hp (by simp [entries, Deed.verdictOn, hne]) ?_).mono ?_)
    · refine (ends_bind _ _).2 ?_
      rw [ends_lift, ends_note]
      have hn : ∀ n, Passed whole x w [] { w with memory := b.diarist.note n w.memory } := fun n => .noted hs hr n
      refine (ends_bind _ _).2 ((hA.asks ((hn _).idle hp) (hn _).routed me (.recved data.length)).mono ?_)
      intro _ t w' h
      have hall := (hn _).trans h.passed
      rw [ends_pure, List.append_nil]
      exact hall
    · intro v t w' h
      exact (settleRecv_passes hA hx hf hfree v hne h.sound h.routed).mono fun _ u w'' h' => h.trans h'
  | eof => exact hcall _ _ _ (by simp [entries, Deed.verdictOn])
  | connected r => exact hcall _ _ _ (by simp [entries])
  | sent len => exact hcall _ _ _ (by simp [entries])
  | poll => exact hcall _ _ _ (by simp [entries])
  | error f => exact (ends_pure _).2 (.refl hs hr)

/-- An event that is not data of the connection. -/
theorem deliver_passes {q : Queued G.diarist} (hq : q.source = x → q.event.parcel = []) (hs : w.stack.Sound [])
    (hr : w.stack.Routed) (hp : w.stack.pumping = true) :
    Ends (deliver b.diarist A free q) w fun _ t w' => Passed whole x w t w' := by
  have hnoted : ∀ n, Passed whole x w [] { w with memory := b.diarist.note n w.memory } := fun n => .noted hs hr n
  obtain ⟨source, event, route⟩ := q
  unfold deliver
  cases route with
  | sink code =>
    cases event with
    | error reason =>
      dsimp only
      refine (ends_bind _ _).2 ?_
      rw [ends_lift, ends_note]
      cases code with
      | none => exact (ends_pure _).2 (hnoted _)
      | some code =>
        simp only [ends_bind, ends_lift, ends_getSlots, ends_record, ends_pure]
        generalize Mark.told (H := G.diarist) source _ reason code = mark
        have hmark : ∀ n, Passed whole x w [mark] { w with memory := b.diarist.note n w.memory } := fun n =>
          (hnoted n).recorded _
        refine (hA.verdict (hb code (.err reason)) ((hmark _).idle hp) (hmark _).routed (.err reason)).mono ?_
        rintro r t _ ⟨w₁, h, rfl⟩
        have hall := (hmark _).trans h.passed
        simpa [entries] using hall
    | _ => exact (ends_pure _).2 (.refl hs hr)
  | layer outer => exact deliverToLayer_passes hA hx hf hfree outer hq hs hr hp
  | resolve =>
    simp only [ends_bind, ends_lift, ends_lookup]
    cases he : w.stack.find? source with
    | none =>
      simp only [ends_lift, ends_note]
      exact hnoted _
    | some e =>
      cases ho : e.outer with
      | none =>
        simp only [ho]
        exact deliverToApp_passes hA hb hx hf hfree hq hs hr hp
      | some outer =>
        simp only [ho]
        exact deliverToLayer_passes hA hx hf hfree outer hq hs hr hp

/-! ## Data of the connection -/

omit hb hx hf in
/-- A layer that is there takes the data that it is given. -/
theorem withLayer_takes {outer : Handle} {d : Bytes} (hs : w.stack.Sound []) (ha : w.stack.isAlive outer = true) :
    Ends (withLayer b.diarist A free outer (.op (.lower (.recv d)))) w fun v _ _ => (v.bind fun r => r : Outcome) = .ok () := by
  refine withLayer_rule (Q := fun _ reply _ _ _ => reply = .ok ()) hA.toModest (by simp) (fun _ => rfl) hs (clear_nil _ _)
    (fun hf => ?_) (fun e layer he hl => ?_) (fun _ _ _ _ _ hq => hq) fun _ _ _ w₁ hq hs' hc' ha' => ?_
  · rw [isAlive_eq_false.2 hf] at ha
    cases ha
  · have hsound : (w.stack.away outer).Sound [outer] := hs.enter ha
    refine (runMethod_tends (x := x) (w := { w with stack := w.stack.away outer }) hA.toTends (by simp) (fun _ => rfl) hsound
      (clear_nil _ _) (Layer.hands_taken layer d [])).mono ?_
    rintro y u w' ⟨_, hy, -⟩
    exact hy
  · exact (hfree.frees [] outer { w₁ with stack := w₁.stack.back outer _ } hs' hc' ha').mono fun _ _ _ _ => hq

omit hb in
/-- Data of the connection is handed to the layer above. -/
theorem deliverToLayer_judges {outer : Handle} {d : Bytes} (hs : w.stack.Sound []) (hr : w.stack.Routed)
    (hp : w.stack.pumping = true) (ha : w.stack.isAlive outer = true) (hw : Watched whole x [d] h w) :
    Ends (deliverToLayer b.diarist A free outer x (.recv d)) w fun _ t w' => Watched whole x [] (h ++ t) w' := by
  have hlive : w.stack.pumping = false → [d] = [] := fun hc => absurd (hp.symm.trans hc) (by simp)
  unfold deliverToLayer
  refine (ends_bind _ _).2 (((withLayer_passes hA hx hf hfree (by simp) hs hr fun _ => ⟨by simp, by simp⟩).and
    (withLayer_takes hA hfree hs ha)).mono ?_)
  rintro v t w₁ ⟨h₁, hv⟩
  have hw₁ := h₁.tended.watched List.not_mem_nil [d] h hlive hw
  show Ends (settleRecv b.diarist A free x (v.bind fun r => r : Outcome)) w₁ _
  rw [hv]
  unfold settleRecv
  refine (ends_bind _ _).2 ((withLayer_settles (v := .ok ()) hA.toTends hx hf hfree.frees h₁.sound hw₁ ?_).mono
    fun _ u w₂ h₂ => ?_)
  · rintro f ⟨⟩
  rw [ends_pure, List.append_nil, ← List.append_assoc]
  exact h₂

/-- Data of the connection is handed to the application. -/
theorem deliverToApp_judges {d : Bytes} (hs : w.stack.Sound []) (hr : w.stack.Routed) (hp : w.stack.pumping = true)
    (hw : Watched whole x [d] h w) :
    Ends (deliverToApp b.diarist A free x (.recv d)) w fun _ t w' => Watched whole x [] (h ++ t) w' := by
  refine (ends_bind _ _).2 ((callback_judges hA hb hs hr hp hw _).mono ?_)
  rintro v t w₁ ⟨hs₁, hw₁, hv⟩
  unfold settleRecv
  refine (ends_bind _ _).2 ((withLayer_settles hA.toTends hx hf hfree.frees hs₁ hw₁ hv).mono fun _ u w₂ h₂ => ?_)
  rw [ends_pure, List.append_nil, ← List.append_assoc]
  exact h₂

/-- **An event that is delivered** is awaited no more. -/
theorem deliver_tends {q : Queued G.diarist} (hq : q.event.isError = false → q.route = .resolve) (hs : w.stack.Sound [])
    (hr : w.stack.Routed) (hp : w.stack.pumping = true) (hw : Watched whole x (q.parcel x) h w) :
    Ends (deliver b.diarist A free q) w fun _ t w' => Watched whole x [] (h ++ t) w' := by
  by_cases hparcel : q.parcel x = []
  · rw [hparcel] at hw
    have hsource : q.source = x → q.event.parcel = [] := fun hx => by
      unfold Queued.parcel at hparcel
      rwa [if_pos hx] at hparcel
    exact (deliver_passes hA hb hx hf hfree hsource hs hr hp).mono fun _ t w' h' =>
      h'.tended.watched List.not_mem_nil [] h (fun _ => rfl) hw
  · -- data of the connection
    obtain ⟨source, event, route⟩ := q
    obtain rfl : source = x := by
      by_contra hc
      exact hparcel (if_neg hc)
    obtain ⟨d, rfl⟩ : ∃ d, event = .recv d := by
      cases event with
      | recv d => exact ⟨d, rfl⟩
      | _ => exact absurd (if_pos rfl) hparcel
    obtain rfl : route = .resolve := hq rfl
    have hone : (⟨source, .recv d, .resolve⟩ : Queued G.diarist).parcel source = [d] := if_pos rfl
    rw [hone] at hw
    have hborn : .born source ∈ h := by
      by_contra hc
      cases (List.append_eq_nil_iff.1 (hw.unborn hc)).1
    unfold deliver
    simp only [ends_bind, ends_lift, ends_lookup]
    cases he : w.stack.find? source with
    | none =>
      simp only [ends_lift, ends_note, List.append_nil]
      exact watched_of_gone hborn he
    | some e =>
      cases ho : e.outer with
      | none =>
        simp only [ho]
        exact deliverToApp_judges hA hb hx hf hfree hs hr hp hw
      | some outer =>
        simp only [ho]
        have hon : w.stack.On outer source := (hs.agree outer source).2 (outer?_eq_some.2 ⟨e, he, ho⟩)
        obtain ⟨e', he', -⟩ := inner?_eq_some.1 hon
        exact deliverToLayer_judges hA hx hf hfree hs hr hp (isAlive_iff.2 ⟨e', he'⟩) hw

/-- **All events are delivered**, and what is known of the connection is true again, with nothing that waits. -/
theorem drain_tends (n : Nat) (hs : w.stack.Sound []) (hr : w.stack.Routed) (hp : w.stack.pumping = true)
    (hw : Watched whole x [] h w) :
    Ends (drain b.diarist A free n) w fun _ t w' => Watched whole x [] (h ++ t) w' := by
  induction n generalizing w h with
  | zero =>
    unfold drain
    simp
  | succ n ih =>
    unfold drain
    simp only [ends_bind, ends_lift, ends_getSlots]
    cases hq : w.stack.queue with
    | nil =>
      refine (ends_pure _).2 ?_
      simpa using hw
    | cons q rest =>
      simp only [ends_bind, ends_lift, ends_modifySlots]
      have hparcels : w.stack.parcels x = q.parcel x ++ ({ w.stack with queue := rest } : Slots G.diarist).parcels x := by
        unfold parcels
        rw [hq, List.flatMap_cons]
      have hpop : Watched whole x (q.parcel x) h { w with stack := { w.stack with queue := rest } } := by
        refine ⟨hw.alive, fun hb => ?_, fun hn e layer he hl => ?_⟩
        · rw [← hparcels]
          exact hw.unborn hb
        · rw [← hparcels]
          exact hw.flowing hn e layer he hl
      have hr' : ({ w.stack with queue := rest } : Slots G.diarist).Routed := hr.tail hq
      have hs' : ({ w.stack with queue := rest } : Slots G.diarist).Sound [] := hs.of_same rfl rfl rfl rfl
      have hroute : q.event.isError = false → q.route = .resolve := hr q (hq ▸ List.mem_cons_self)
      refine (((deliver_tends (w := { w with stack := { w.stack with queue := rest } }) hA hb hx hf hfree hroute hs' hr' hp
        hpop).and (deliver_upholds (steady_routes b.diarist) hA.upheld hfree.routes q [] _ hr')).and
        (deliver_ends (s := w.stack) hA.toOrderly hfree.frees hs' hp (fun _ => rfl) rfl ?_)).mono ?_
      · unfold outstanding
        rw [hq]
        cases ho : q.owed <;> simp [ho]
      · rintro _ t w₁ ⟨⟨hw₁, hr₁⟩, hm₁⟩
        refine (ih hm₁.sound hr₁ (hm₁.pumping.trans hp) hw₁).mono fun _ u w₂ hw₂ => ?_
        simpa using hw₂

end

end

end Recorded

end Conduit
