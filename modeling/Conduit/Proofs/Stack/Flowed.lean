import Conduit.Proofs.Stack.Deliveries

/-!
# Requests and the connection that is watched

* `Recorded.operate_tends`: an operation on a connection, while layers run or none.
* `Recorded.insert_tends`: a connection that comes.
* `Recorded.exec_serves`: **every request leaves what is known of the connection.**
-/

namespace Conduit

open Exec

variable {G : Host} {whole : G.diarist.Engine → Bytes → Prop} {x : Handle}

namespace Recorded

open Stack Slots Mark

variable {b : Behaviour G.diarist} {w w' w'' : World G.diarist} {t u h : List (Mark G.diarist)} {id : Handle}
  {R : List Handle} {extra : List Bytes}

/-! ## Operations -/

/-- Whether events are being delivered says nothing of the connection. -/
theorem Watched.pumping (h' : Watched whole x extra h w) (p : Bool) :
    Watched whole x extra h { w with stack := { w.stack with pumping := p } } := ⟨h'.alive, h'.unborn, h'.flowing⟩

section

variable {A : Answers G.diarist} {free : Handle → Recorded G.diarist Unit} [IsEmpty G.Layer] (hA : Serves whole x A)
  (hb : ∀ code call, (b.callback code call).Asks Brings) (hx : Tls.Exhausts b.diarist.engine whole)
  (hf : Tls.Fruitful b.diarist.engine) (hfree : Clears whole x free)
include hA hb hx hf hfree

/-- The events that wait are delivered, unless a layer runs. -/
theorem pump_tends (n : Nat) (hs : w.stack.Sound R) (hr : R = [] → w.stack.Routed) :
    Ends (pump b.diarist A free n) w fun _ t w' => Tended whole x R w t w' := by
  unfold pump
  simp only [ends_bind, ends_lift, ends_getSlots]
  split
  · exact (ends_pure _).2 .refl
  · rename_i hidle
    rw [Bool.or_eq_true, not_or, decide_eq_true_eq, Bool.not_eq_true, hs.depth] at hidle
    obtain ⟨hlen, hp⟩ := hidle
    obtain rfl : R = [] := List.length_eq_zero_iff.1 (Nat.eq_zero_of_not_pos hlen)
    simp only [ends_bind, ends_lift, ends_modifySlots]
    have hs' : ({ w.stack with pumping := true } : Slots G.diarist).Sound [] := hs.of_same rfl rfl rfl rfl
    intro r w' hrun
    refine ⟨fun hx => absurd hx List.not_mem_nil, fun _ extra h he hw => ?_, hp.symm⟩
    -- nothing is being delivered before
    rw [he hp] at hw ⊢
    have hdrained := (drain_tends (w := { w with stack := { w.stack with pumping := true } }) hA hb hx hf hfree n hs'
      (hr rfl) rfl (hw.pumping true) r w' hrun).pumping false
    simpa using hdrained

omit hb in
/-- A method runs for an application or for a layer. -/
theorem withLayer_handles {m : Method} (hm : m ≠ .dealloc) (htop : m.isLower = true → R = []) (hs : w.stack.Sound R)
    (hc : w.stack.Clear R id) (hr : R = [] → w.stack.Routed) (hown : id = x → ∀ v, m ≠ .settled v) :
    Ends (withLayer b.diarist A free id m) w fun _ t w' => Handled m id R w.stack t w'.stack ∧
      (R = [] → w'.stack.Routed) ∧ ((id = x → m ≠ .op .abort) → Tended whole x R w t w') := by
  intro r w' hrun
  refine ⟨withLayer_ends hA.toModest hfree.frees hm htop hs hc r w' hrun, fun hR => ?_, fun habort => ?_⟩
  · exact withLayer_upholds (steady_routes b.diarist) hA.upheld hfree.routes id m [] w (hr hR) r w' hrun
  · exact withLayer_tends hA.toTends hx hf hfree.frees hfree.spares hm htop hs hc (fun hid => ⟨habort hid, hown hid⟩) r w' hrun

/-- A method runs, and what it has caused is delivered. -/
theorem call_tends (n : Nat) (o : Op) (hlow : R ≠ [] → (Method.op o).isLower = false) (ho : id = x → o ≠ .abort)
    (hs : w.stack.Sound R) (hc : w.stack.Clear R id) (hr : R = [] → w.stack.Routed) :
    Ends (call b.diarist A free n id o) w fun _ t w' => Tended whole x R w t w' := by
  have htop : (Method.op o).isLower = true → R = [] := by
    intro ho
    by_contra hR
    rw [hlow hR] at ho
    cases ho
  unfold call
  refine (ends_bind _ _).2 ((withLayer_handles hA hx hf hfree (by simp) htop hs hc hr (by simp)).mono ?_)
  rintro r t w₁ ⟨hhandled, hr₁, htended⟩
  have hown : id = x → Method.op o ≠ .op .abort := fun hid hc => ho hid (Method.op.inj hc)
  refine (ends_bind _ _).2 ((pump_tends hA hb hx hf hfree n hhandled.sound hr₁).mono ?_)
  intro _ u w₂ h'
  have hboth := (htended hown).trans h'
  cases r <;> simpa using hboth

/-- **A connection is aborted**, the one that is watched or another. -/
theorem abort_tends (n : Nat) (hs : w.stack.Sound R) (hc : w.stack.Clear R id)
    (hup : R ≠ [] → ∀ e, w.stack.find? id = some e → e.outer ≠ none) (hr : R = [] → w.stack.Routed) :
    Ends (operate b.diarist A free n id .abort) w fun _ t w' => Tended whole x R w t w' := by
  unfold operate
  simp only [ends_bind, ends_lift, ends_getSlots]
  cases ha : w.stack.isAlive id with
  | false => exact (ends_pure _).2 .refl
  | true =>
    simp only [if_true, ends_bind, ends_lift, ends_getSlots, ends_record, ends_note]
    have hlow : (Method.op .abort).isLower = true → R = [] := fun hf => absurd hf Bool.false_ne_true
    generalize hm : b.diarist.note (.debug "abort requested" [id.field]) w.memory = m
    have hu : Undisturbed x w { w with memory := m } := hm ▸ .noted _
    refine (withLayer_handles (w := { w with memory := m }) hA hx hf hfree (by simp) hlow hs hc hr (by simp)).mono ?_
    rintro _ t w₁ ⟨h, hr₁, htended⟩
    have hsh₁ := h.shrinks rfl
    have ha₁ := (h.aborted rfl).trans ha
    simp only [ha₁, if_true, ends_bind, enqueue, ends_lift, ends_getSlots, ends_record, Stack.enqueue, ends_modifySlots]
    have hs₂ := h.sound.enqueue id (.error .aborted)
    have hc₂ := clear_ended hs hc hsh₁ h.sound ha₁ hup
    have hr₂ : R = [] → (w₁.stack.enqueue id (.error .aborted)).Routed := fun hR => (settled_enqueue _).routed (hr₁ hR)
    obtain ⟨-, -, -, hal, hp⟩ := departs_error w₁.stack id .aborted
    -- it goes, or it is another than the one that is watched
    have hfreed : Ends (free id) { w₁ with stack := w₁.stack.enqueue id (.error .aborted) } fun _ u w₂ =>
        w₂.stack.Sound R ∧ (R = [] → w₂.stack.Routed) ∧
          Tended whole x R w (aborting w.stack id ++ (t ++ (ending w₁.stack id (.error .aborted) ++ u))) w₂ := by
      intro r w₂ hrun
      have hf₂ := hfree.frees R id _ hs₂ hc₂ ((hal id).trans ha₁) r w₂ hrun
      refine ⟨hf₂.sound, fun hR => hfree.routes id []
        { w₁ with stack := w₁.stack.enqueue id (.error .aborted) } (hr₂ hR) r w₂ hrun, ?_⟩
      by_cases hid : id = x
      · subst hid
        exact .of_gone hc.not_mem ha hf₂.gone (hf₂.shrinks.pumping.trans (hp.trans hsh₁.pumping))
      · have hspared := hfree.spares R id _ hs₂ hc₂ ((hal id).trans ha₁) r w₂ hrun
        have hwaits : Undisturbed x w₁ { w₁ with stack := w₁.stack.enqueue id (.error .aborted) } :=
          .enqueue fun hc => absurd hc hid
        exact (hu.tended _).trans ((htended fun hc => absurd hc hid).trans ((hwaits.tended _).trans hspared))
    refine hfreed.mono ?_
    rintro _ u w₂ ⟨hs₃, hr₃, h₂⟩
    refine (pump_tends hA hb hx hf hfree n hs₃ hr₃).mono fun _ v w₃ h₃ => ?_
    have hall := h₂.trans h₃
    simpa using hall

/-- **An operation on a connection**, while the layers of `R` run, or none. -/
theorem operate_tends (n : Nat) (o : Op) (hlow : R ≠ [] → (Method.op o).isLower = false) (hs : w.stack.Sound R)
    (hc : w.stack.Clear R id) (hup : R ≠ [] → ∀ e, w.stack.find? id = some e → e.outer ≠ none)
    (hr : R = [] → w.stack.Routed) : Ends (operate b.diarist A free n id o) w fun _ t w' => Tended whole x R w t w' := by
  cases o with
  | abort => exact abort_tends hA hb hx hf hfree n hs hc hup hr
  | setPoll interval =>
    unfold operate
    simp only [ends_bind, ends_lift, ends_getSlots]
    cases ha : w.stack.isAlive id with
    | false => exact (ends_pure _).2 .refl
    | true =>
      simp only [if_true, ends_bind, ends_lift, ends_modifySlots]
      have hu : Undisturbed x w { w with stack := w.stack.update id fun e => { e with pollInterval := interval } } :=
        .update fun _ _ => rfl
      have hs₁ : (w.stack.update id fun e => { e with pollInterval := interval }).Sound R :=
        hs.update (fun _ => rfl) (fun _ => rfl) fun _ => rfl
      have hsh₁ : w.stack.Shrinks (w.stack.update id fun e => { e with pollInterval := interval }) :=
        .of_update (fun _ => rfl) fun _ => rfl
      have hr₁ : R = [] → (w.stack.update id fun e => { e with pollInterval := interval }).Routed := hr
      generalize w.stack.update id (fun e => { e with pollInterval := interval }) = s₁ at hu hs₁ hsh₁ hr₁ ⊢
      have hc₁ := hc.shrinks hsh₁ hs.toLinked hs₁.toLinked
      refine (call_tends (w := { w with stack := s₁ }) hA hb hx hf hfree n (.setPoll interval) (fun _ => rfl) (by simp) hs₁
        hc₁ hr₁).mono ?_
      exact fun _ t w' h => (hu.tended []).trans h
  | lower e =>
    unfold operate
    refine (ends_bind _ _).2 ?_
    rw [ends_lift, ends_note]
    generalize hm : b.diarist.note _ w.memory = m
    have hu : Undisturbed x w { w with memory := m } := hm ▸ .noted _
    refine (call_tends (w := { w with memory := m }) hA hb hx hf hfree n (.lower e) hlow (by simp) hs hc hr).mono ?_
    exact fun _ t w' h => (hu.tended []).trans h
  | _ => exact call_tends hA hb hx hf hfree n _ hlow (by simp) hs hc hr

end

/-! ## Connections that come -/

/-- The connection that is watched comes, or another does. -/
theorem inserted_tended {layer : Layer G.diarist} (hs : w.stack.Sound R) (hl : layer.New) (name : String) :
    Tended whole x R w [.born w.stack.nextHandle] { w with stack := w.stack.insert name layer } := by
  have hq : (w.stack.insert name layer).queue = w.stack.queue := by
    unfold Slots.insert
    split <;> rfl
  have hp : (w.stack.insert name layer).pumping = w.stack.pumping := by
    unfold Slots.insert
    split <;> rfl
  have hfind : ∀ y, (w.stack.insert name layer).find? y =
      if y = w.stack.nextHandle then some { layer := some layer, name } else w.stack.find? y :=
    fun y => find?_insert hs.toCounted
  by_cases hx : x = w.stack.nextHandle
  · refine ⟨fun _ => ⟨parcels_congr hq, rfl⟩, fun _ extra h _ hw => ?_, hp⟩
    have hmem : Mark.born x ∈ h ++ [.born w.stack.nextHandle] := by simp [hx]
    refine ⟨fun _ => hmem, fun hb => absurd hmem hb, fun hn e l he hel => ?_⟩
    -- its handle was not given out before
    have hnew : Mark.born x ∉ h := fun hb => by
      have hpos : 0 < (births h).count x := List.count_pos_iff.2 (mem_births.2 hb)
      have hagain : 0 < (births [Mark.born (H := G.diarist) w.stack.nextHandle]).count x :=
        List.count_pos_iff.2 (mem_births.2 (by simp [hx]))
      rw [births_append, List.count_append] at hn
      omega
    show Layer.Flowing _ _ (extra ++ (w.stack.insert name layer).parcels x) l
    rw [parcels_congr hq, hw.unborn hnew]
    change (w.stack.insert name layer).find? x = some e at he
    rw [hfind x, if_pos hx] at he
    cases he
    cases hel
    exact hl.flowing
  · have hsame : (w.stack.insert name layer).find? x = w.stack.find? x := (hfind x).trans (if_neg hx)
    refine (Undisturbed.of_slots hq hp (fun ha => ?_) fun e' l he hel => ⟨e', hsame ▸ he, hel⟩).tended _
    unfold isAlive at ha ⊢
    rwa [← hsame]

/-- **A new connection comes.** -/
theorem insert_tends {layer : Layer G.diarist} (hs : w.stack.Sound R) (hl : layer.New) :
    Ends (insert b.diarist layer) w fun _ t w' => Tended whole x R w t w' := by
  unfold insert Stack.insert
  simp only [ends_bind, ends_lift, ends_getSlots, ends_record, Exec.ends_bind, ends_modifySlots, Stack.ends_note,
    Exec.ends_pure]
  exact (inserted_tended hs hl _).trans ((Undisturbed.noted _).tended [])

theorem openPcb_tends (hs : w.stack.Sound R) (p : PcbRef G.diarist.Pcb) :
    Ends (openPcb b.diarist p) w fun _ t w' => Tended whole x R w t w' := by
  unfold openPcb
  simp only [ends_bind, ends_lift, ends_getSlots]
  intro _ w₁ hrun
  have hu : Undisturbed x w w₁ := (performPcb_quiet p _ _ w₁ hrun).undisturbed
  have hs₁ : w₁.stack.Sound R := ends_performPcb (b := b.diarist) p _ _ w₁ hrun ▸ hs
  have hnew : (Layer.plain (Plain.ofPcb p) : Layer G.diarist).New := ⟨p, rfl⟩
  have hborn : Ends (insert b.diarist (.plain (Plain.ofPcb p))) w₁ fun _ t w' => Tended whole x R w₁ t w' :=
    insert_tends hs₁ hnew
  exact hborn.mono fun _ t w₂ h => (hu.tended []).trans h

theorem wrap_tends {inner : Handle} {layer : Layer G.diarist} (hs : w.stack.Sound R) (hl : layer.New) :
    Ends (wrap b.diarist inner layer) w fun _ t w' => Tended whole x R w t w' := by
  unfold wrap
  simp only [ends_bind, ends_lift, ends_lookup]
  cases hf : w.stack.find? inner with
  | none => exact (ends_pure _).2 .refl
  | some e =>
    cases ho : e.outer with
    | some outer =>
      simp only [ho, Option.isSome_some, if_true]
      exact (ends_pure _).2 .refl
    | none =>
      simp only [ho, Option.isSome_none, Bool.false_eq_true, if_false]
      have hborn : Ends (insert b.diarist layer) w fun _ t w' => Tended whole x R w t w' := insert_tends hs hl
      refine (ends_bind _ _).2 (hborn.mono fun outer t w₁ h => ?_)
      simp only [ends_bind, ends_lift, ends_modifySlots, ends_note, ends_pure]
      have habove : Undisturbed x w₁ { w₁ with stack := w₁.stack.update outer fun e => { e with inner := some inner } } :=
        .update fun _ _ => rfl
      have hbelow : Undisturbed x _ { w₁ with stack := w₁.stack.link inner outer } :=
        habove.trans (.update fun _ _ => rfl)
      exact h.trans ((hbelow.trans (.noted _)).tended _)


/-! ## What is done between requests -/

/-- What leaves a stack that is idle as an application may leave it. -/
def Serving (whole : G.diarist.Engine → Bytes → Prop) (x : Handle) {α : Type} (y : Recorded G.diarist α) : Prop :=
  ∀ w, w.stack.Idle → w.stack.Routed → Ends y w fun _ t w' => Served whole x w t w'

variable {α β : Type}

theorem serving_pure (a : α) : Serving whole x (pure a : Recorded G.diarist α) := fun _ hi hr => (ends_pure a).2 (.refl hi hr)

theorem Serving.bind {y : Recorded G.diarist α} {f : α → Recorded G.diarist β} (hy : Serving whole x y)
    (hf : ∀ a, Serving whole x (f a)) : Serving whole x (y >>= f) := fun w hi hr =>
  (ends_bind _ _).2 ((hy w hi hr).mono fun a _ w₁ h =>
    (hf a w₁ h.carried.idle h.routed).mono fun _ _ _ h' => h.trans h')

/-- The net, what engines share and what is noted are no concern of a connection. -/
theorem serving_lift {y : Exec G.diarist α} (hy : ∀ w, Exec.Ends y w fun _ w' => Quiet w w') :
    Serving whole x (lift y) := by
  intro w hi hr
  rw [ends_lift]
  refine (hy w).mono fun _ w' h => ⟨?_, h.undisturbed.tended [], ?_⟩
  · rw [h.1]
    exact .refl hi
  · rwa [h.1]

theorem serving_note (n : Note) : Serving whole x (lift (note b.diarist n)) := serving_lift fun _ => note_quiet n

theorem serving_get : Serving whole x (lift get : Recorded G.diarist _) := serving_lift fun _ => Exec.ends_get.2 ⟨rfl, rfl⟩

theorem serving_getSlots : Serving whole x (lift getSlots : Recorded G.diarist _) :=
  serving_lift fun _ => ends_getSlots.2 ⟨rfl, rfl⟩

theorem serving_modify {f : World G.diarist → World G.diarist} (hf : ∀ w, Quiet w (f w)) :
    Serving whole x (lift (modify f)) := serving_lift fun w => (Exec.ends_modify f).2 (hf w)

theorem serving_openPcb (p : PcbRef G.diarist.Pcb) : Serving whole x (openPcb b.diarist p) := by
  intro w hi hr r w' hrun
  exact ⟨(openPcb_ends hi.sound p r w' hrun).carried hi, openPcb_tends hi.sound p r w' hrun,
    (steady_routes b.diarist).openPcb p [] w hr r w' hrun⟩

section

variable {A : Answers G.diarist} (hA : Serves whole x A)
include hA

theorem dispatch_serving (id : Handle) (a : Arrival G.diarist.Pcb) : Serving whole x (dispatch b.diarist A id a) := by
  have hask : ∀ id o, Serving whole x (A (.ask id o)) := fun id o w hi hr => hA.asks hi hr id o
  cases a with
  | event e => exact hask id _
  | accepted p =>
    unfold dispatch
    refine serving_getSlots.bind fun s => ?_
    split
    · refine (serving_openPcb p).bind fun new => (hask id _).bind fun v => ?_
      cases v with
      | ok _ => exact serving_pure _
      | error f => exact (hask new _).bind fun _ => serving_pure _
    · exact (serving_note _).bind fun _ => (serving_lift fun _ => performPcb_quiet p _).bind fun _ => serving_pure _

theorem stepNet_serving : Serving whole x (stepNet b.diarist A) := by
  unfold stepNet
  refine serving_get.bind fun w => ?_
  split
  · exact serving_pure _
  · refine (serving_modify (by exact fun _ => ⟨rfl, rfl⟩)).bind fun _ => (serving_lift fun _ => notes_quiet _).bind fun _ => ?_
    dsimp only
    split
    · exact serving_pure _
    · exact (dispatch_serving hA _ _).bind fun _ => serving_pure _
    · exact (serving_lift fun _ => performPcb_quiet _ _).bind fun _ => serving_pure _
    · refine (serving_modify (by exact fun _ => ⟨rfl, rfl⟩)).bind fun _ => ?_
      split
      · exact serving_pure _
      · exact (serving_note _).bind fun _ => (dispatch_serving hA _ _).bind fun _ => serving_pure _
    · refine (dispatch_serving hA _ _).bind fun v => ?_
      split
      · exact serving_pure _
      · exact (serving_note _).bind fun _ => serving_pure _
    · exact (serving_modify (by exact fun _ => ⟨rfl, rfl⟩)).bind fun _ => serving_pure _
    · exact serving_pure _

theorem settleNet_serving (n : Nat) : ∀ done, Serving whole x (settleNet b.diarist A n done) := by
  induction n with
  | zero => exact fun done => (serving_note _).bind fun _ => serving_pure _
  | succ n ih =>
    intro done
    have hstep : Serving whole x (A .step) := fun w hi hr => hA.served hi hr trivial (by rintro m ⟨⟩)
    refine hstep.bind fun v => ?_
    cases v with
    | true => exact ih _
    | false => exact serving_pure _

end

/-! ## All requests -/

theorem forM_serving {γ : Type} {f : γ → Recorded G.diarist PUnit} (hf : ∀ a, Serving whole x (f a)) (l : List γ) :
    Serving whole x (l.forM f) := by
  induction l with
  | nil => exact serving_pure _
  | cons a l ih => exact (hf a).bind fun _ => ih

section

variable {A : Answers G.diarist} {free : Handle → Recorded G.diarist Unit} [IsEmpty G.Layer]

variable (hA : Serves whole x A) (hb : ∀ code call, (b.callback code call).Asks Brings)
  (hx : Tls.Exhausts b.diarist.engine whole) (hf : Tls.Fruitful b.diarist.engine) (hfree : Clears whole x free)
include hA hb hx hf hfree

/-- A request of an application leaves what is known of the connection. -/
theorem answer_asked (k : Nat) (r : Req G.diarist) (hi : w.stack.Idle) (hr : w.stack.Routed) (hbrings : Brings r)
    (hheedless : Heedless r) : Ends (answer b.diarist A free k r) w fun _ t w' => Tended whole x [] w t w' := by
  have hserving : ∀ {α : Type} {y : Recorded G.diarist α}, Serving whole x y →
      Ends y w fun _ t w' => Tended whole x [] w t w' := fun hy => (hy w hi hr).mono fun _ _ _ h => h.tended
  cases r with
  | ask id o =>
    exact operate_tends hA hb hx hf hfree k o (fun hR => absurd rfl hR) hi.sound (clear_nil _ _)
      (fun hR => absurd rfl hR) fun _ => hr
  | insert layer => exact insert_tends hi.sound hbrings
  | wrap inner layer => exact wrap_tends hi.sound hbrings
  | openPcb p => exact openPcb_tends hi.sound p
  | dispatch id a => exact hserving (dispatch_serving hA id a)
  | step => exact hserving (stepNet_serving hA)
  | settle => exact hserving (settleNet_serving hA _ _)
  | tick =>
    refine hserving (serving_get.bind fun w₁ => (serving_modify (by exact fun _ => ⟨rfl, rfl⟩)).bind fun _ => ?_)
    exact forM_serving (fun id => (dispatch_serving hA id _).bind fun _ => serving_pure _) _
  | register id kind code =>
    refine (ends_lift _).2 ?_
    unfold Stack.answer
    simp only [Exec.ends_bind, ends_getSlots]
    split
    · simp only [Exec.ends_bind, ends_modifySlots, Exec.ends_pure]
      have hu : Undisturbed x w { w with
          stack := w.stack.update id fun e => { e with callbacks := e.callbacks.set kind (some code) } } :=
        .update fun _ _ => rfl
      exact hu.tended []
    · exact (Exec.ends_pure _).2 .refl
  | clearCallbacks id =>
    refine (ends_lift _).2 ?_
    unfold Stack.answer
    simp only [ends_modifySlots]
    have hu : Undisturbed x w { w with stack := w.stack.clearCallbacks id } := .update fun _ _ => rfl
    exact hu.tended []
  | modifyLayer id f =>
    refine (ends_lift _).2 ?_
    unfold Stack.answer
    simp only [Exec.ends_bind, ends_lookup]
    split
    · rename_i l hl
      exact isEmptyElim l
    · exact (Exec.ends_pure _).2 .refl
  | pcb p o => exact hserving (serving_lift fun _ => performPcb_quiet p o)
  | newEngine config name => exact hserving (serving_lift fun _ => newEngine_quiet config name)
  | note n => exact hserving (serving_note n)
  | remember m => exact absurd rfl (hheedless m)
  | _ =>
    refine hserving (serving_lift fun w => ?_)
    unfold Stack.answer
    simp [Quiet]

/-- **Every request leaves what is known of the connection**, if those that it leads to do. -/
theorem answer_serves (k : Nat) : Serves whole x (answer b.diarist A free k) where
  toOrderly := answer_orderly hA.toOrderly hfree.frees k
  ask_tends R id o w hR hs hallowed :=
    operate_tends hA hb hx hf hfree k o (fun _ => hallowed.2.2) hs hallowed.1 (fun _ => hallowed.2.1) fun hnil => absurd hnil hR
  cover_tends R inner l w hs hl := wrap_tends hs hl
  asked r w hi hr hbrings hheedless := answer_asked hA hb hx hf hfree k r hi hr hbrings hheedless
  routes r := by
    by_cases hr : Heedless r
    · exact answer_upholds (steady_routes b.diarist) hA.upheld hfree.routes k r hr
    · unfold Heedless at hr
      push Not at hr
      obtain ⟨m, rfl⟩ := hr
      exact upholds_lift fun h w hj => (Exec.ends_modify _).2 hj
  recalls w := by
    refine (ends_lift _).2 ?_
    unfold Stack.answer
    simp
  remembers m w := by
    refine (ends_lift _).2 ?_
    unfold Stack.answer
    simp

omit hA hfree in
/-- **Every request leaves what is known of the connection.** -/
theorem exec_serves (k : Nat) : Serves whole x (exec b.diarist k) := by
  induction k with
  | zero =>
    exact { exec_orderly 0 with
      ask_tends := fun R id o w _ _ _ => by simp [exec]
      cover_tends := fun R inner l w _ _ => by simp [exec]
      asked := fun r w _ _ _ _ => by simp [exec]
      routes := fun r => upholds_throw _
      recalls := fun w => by simp [exec]
      remembers := fun m w => by simp [exec] }
  | succ k ih => exact answer_serves ih hb hx hf (freeEntry_clears ih k) k

end

end Recorded

end Conduit
