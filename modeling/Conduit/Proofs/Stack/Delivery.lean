import Conduit.Proofs.Stack.Channel

/-!
# An application between a sender and a receiver

The application does what it likes, from outside and from its callbacks, as long as it neither takes the two connections
apart nor closes or silences the receiver; it keeps a diary. All that it asks leaves the two connections as they are.

* `Channel.Fair`: what the application may ask.
* `Channel.At`: the world whenever the application has its turn.
* `Served.deliver_ends`: **an event that waited is handed to whom it concerns**, with all that the application does then.
* `exec_served`: every fair request leads from one such world to the next.
-/

namespace Conduit

open Exec Loopback

namespace Stack

namespace Channel

variable {H : Host} (c : Channel)

/-- What the application may ask while it keeps the two connections: nothing that takes them apart, closes or silences
the receiver, makes up events, or brings in other connections. -/
def Fair : Req H → Prop
  | .ask id o =>
    (id = c.sender ∧ o.isCalm = true ∧ ∀ e, o ≠ .lower e) ∨ (id = c.receiver ∧ o.isMild = true)
  | .clearCallbacks id => id ≠ c.receiver
  | .insert _ | .wrap _ _ | .openPcb _ | .dispatch _ _ | .pcb _ _ => False
  | _ => True

/-- The calls that the two connections lead to while they live. -/
def Calls : Call → Prop
  | .connected me _ | .recv me _ | .sent me _ | .poll me => me = c.sender ∨ me = c.receiver
  | .accept _ _ | .err _ => False

/-- The callbacks of the two connections ask for no more than is fair. -/
def FairCalls (b : Behaviour H) : Prop := ∀ code call, c.Calls call → (b.callback code call).Asks c.Fair

/-- The world of the two connections, as the diary has it. -/
def Stands (ph : Phase) (work : List (Option Bytes)) (w : World H.diarist) : Prop :=
  c.Has ph work w.memory.2 (c.said w.memory.2) w ∧ w.stack.depth = 0

/-- The world whenever the application has its turn. -/
structure At (ph : Phase) (w : World H.diarist) : Prop where
  stands : c.Stands ph ph.work w
  queue : ph = .idle → w.stack.queue = []

/-- How requests are answered: each leaves the two connections as they are. -/
structure Served (A : Answers H.diarist) : Prop where
  fair : ∀ ph r, c.Fair r → Upholds (c.At ph) ((noted r).run A)
  sender : ∀ ph e, e.isTame = true → Upholds (c.At ph) (A (.ask c.sender (.lower e)))
  receiver : ∀ ph e (w : World H.diarist), c.Arrives ph e w.memory.2 (c.said w.memory.2) w → w.stack.depth = 0 →
    (ph = .idle → w.stack.queue = []) → Ends (A (.ask c.receiver (.lower e))) w fun _ w' => c.At ph w'
  enters : ∀ d (w : World H.diarist), Ends ((enter d).run A) w fun _ w' => w' = { w with memory := (w.memory.1, w.memory.2 ++ [d]) }

variable {c} {ph : Phase} {work : List (Option Bytes)} {w w' : World H.diarist} {id : Handle} {ds : List Deed}
  {said : Bytes} {f : Entry H.diarist → Entry H.diarist}

/-! ## Changes outside the layers -/

theorem Has.of_level {w' : World H.diarist} (h : c.Has ph work w.memory.2 (c.said w.memory.2) w') (hl : Level w w')
    (hd : w.stack.depth = 0) : c.Stands ph work w' := by
  unfold Stands
  rw [hl.diary, hl.depth]
  exact ⟨h, hd⟩

/-- A connection changes, but not in its links or its layer. -/
theorem Has.update (h : c.Has ph work ds said w) (hi : ∀ e, (f e).inner = e.inner) (ho : ∀ e, (f e).outer = e.outer)
    (hl : ∀ e, (f e).layer = e.layer)
    (hr : id = c.receiver → ∀ e, c.Receiver ph e → c.Receiver ph (f e)) :
    c.Has ph work ds said { w with stack := w.stack.update id f } := by
  obtain ⟨brought, fin, P, hn, ha, hh⟩ := h
  refine ⟨brought, fin, P, hn, ha.of_same (ha.around.update (fun _ e he => ?_) hr) rfl, hh.update fun _ e => hl e⟩
  exact ⟨(hi e).trans he.inner, (ho e).trans he.outer, fun l hl' => he.layer l ((hl e).symm.trans hl')⟩

theorem At.update (h : c.At ph w) (hi : ∀ e, (f e).inner = e.inner) (ho : ∀ e, (f e).outer = e.outer)
    (hl : ∀ e, (f e).layer = e.layer)
    (hr : id = c.receiver → ∀ e, c.Receiver ph e → c.Receiver ph (f e)) :
    c.At ph { w with stack := w.stack.update id f } :=
  ⟨⟨h.stands.1.update hi ho hl hr, h.stands.2⟩, h.queue⟩

/-- Whatever the application remembers, its diary is the same. -/
theorem At.remembers (h : c.At ph w) (m : H.Memory) : c.At ph { w with memory := (m, w.memory.2) } :=
  ⟨h.stands, h.queue⟩

/-- The net changes, but nothing is brought. -/
theorem At.net (h : c.At ph w) {n : Net} (m : H.Memory) (hn : ∀ brought fin,
    w.net.Streams c.source c.target c.sender c.receiver c.base (c.said w.memory.2) brought fin →
    n.Streams c.source c.target c.sender c.receiver c.base (c.said w.memory.2) brought fin) :
    c.At ph { w with net := n, memory := (m, w.memory.2) } := by
  obtain ⟨⟨⟨brought, fin, P, hs, ha, hh⟩, hd⟩, hq⟩ := h
  exact ⟨⟨⟨brought, fin, P, hn _ _ hs, ha, hh⟩, hd⟩, hq⟩

/-- The application enters something that tells nothing of the receiver. -/
theorem Has.entered {d : Deed} (h : c.Has ph work ds said w) (hd : ∀ data v, d ≠ .got c.receiver data v)
    (m : H.Memory × List Deed) : c.Has ph work (ds ++ [d]) said { w with memory := m } := by
  obtain ⟨brought, fin, P, hn, ha, hh⟩ := h
  exact ⟨brought, fin, P, hn, ha.entered hd, hh⟩

/-! ## Callbacks -/

/-- What is entered when a callback has been called. -/
def deeds : Call → Outcome → List Deed
  | .recv me data, v => [.got me data v]
  | _, _ => []

variable {A : Answers H.diarist} {b : Behaviour H.diarist} {k : Nat}

/-- What the application does in a callback leaves the two connections as they are; then it enters its verdict. -/
theorem Served.verdict_ends (hA : c.Served A) {p : Act H.diarist (H.Code × Outcome)} (hp : p.Asks c.Fair)
    (hw : c.At ph w) (call : Call) :
    Ends ((withVerdict call p).run A) w fun r w' => ∃ w₁, c.At ph w₁ ∧
      w' = { w₁ with memory := (w₁.memory.1, w₁.memory.2 ++ deeds call r.2) } := by
  unfold withVerdict
  rw [Program.run_bind, ends_bind]
  have hdiary : (withDiary p).run A = p.run fun r => (noted r).run A := Program.run_run _ _ _
  rw [hdiary]
  refine (upholds_run (J := c.At ph) (P := c.Fair) (hA.fair ph) hp w hw).mono ?_
  rintro ⟨code, v⟩ w₁ hw₁
  cases call with
  | recv me data =>
    show Ends ((enter (.got me data v) >>= fun _ => pure (code, v)).run A) w₁ _
    rw [Program.run_bind, ends_bind]
    exact (hA.enters _ w₁).mono fun _ w' hw' => (ends_pure _).2 ⟨w₁, hw₁, hw'⟩
  | _ =>
    refine (ends_pure _).2 ⟨w₁, hw₁, ?_⟩
    simp [deeds]

/-- Taking a callback away and putting it back is nothing to the links and the layer of a connection. -/
theorem restored (kind : CallbackKind) (epoch : Nat) (code : H.Code) (e : Entry H.diarist) :
    let e' : Entry H.diarist := if e.epoch = epoch && (e.callbacks.get kind).isNone then
      { e with callbacks := e.callbacks.set kind (some code) } else e
    e'.inner = e.inner ∧ e'.outer = e.outer ∧ e'.layer = e.layer ∧ e'.epoch = e.epoch ∧
      (e.callbacks.recv ≠ none → e'.callbacks.recv ≠ none) := by
  intro e'
  simp only [e']
  split
  · refine ⟨rfl, rfl, rfl, rfl, fun h => ?_⟩
    cases kind with
    | recv => simp [Callbacks.set]
    | _ => exact h
  · exact ⟨rfl, rfl, rfl, rfl, fun h => h⟩

/-- **A callback**, other than that of the receiver for data. -/
theorem Served.callback_ends (hA : c.Served A) (hb : c.FairCalls b)
    {kind : CallbackKind} {call : Call} {absent : Exec H.diarist Outcome} (hid : id = c.receiver → kind ≠ .recv)
    (hcall : ∀ me data, call = .recv me data → me ≠ c.receiver) (hcalls : c.Calls call)
    (habsent : Ends absent w fun _ w' => c.At ph w') (hw : c.At ph w) :
    Ends (callback b.diarist A id kind call absent) w fun _ w' => c.At ph w' := by
  unfold callback
  rw [ends_bind, ends_lookup]
  cases he : w.stack.find? id with
  | none => exact habsent
  | some e =>
    cases hcode : e.callbacks.get kind with
    | none => simpa only [hcode] using habsent
    | some code =>
      simp only [hcode, ends_bind, ends_modifySlots]
      have hw₁ : c.At ph { w with stack := w.stack.takeCallback id kind } := by
        refine hw.update (fun _ => rfl) (fun _ => rfl) (fun _ => rfl) fun hc e he => ⟨he.inner, he.outer, he.epoch, ?_⟩
        intro hwork
        have hrecv := he.recv hwork
        cases kind with
        | recv => exact absurd rfl (hid hc)
        | _ => exact hrecv
      refine (hA.verdict_ends (hb code call hcalls) hw₁ call).mono ?_
      rintro ⟨code', v⟩ w' ⟨w₂, hw₂, rfl⟩
      refine (ends_pure _).2 ?_
      -- the entry, if there is one, tells nothing of the receiver
      have hw₃ : c.At ph { w₂ with memory := (w₂.memory.1, w₂.memory.2 ++ deeds call v) } := by
        cases call with
        | recv me data =>
          have hne := hcall me data rfl
          refine ⟨⟨?_, hw₂.stands.2⟩, hw₂.queue⟩
          have hsaid : c.said (w₂.memory.2 ++ [.got me data v]) = c.said w₂.memory.2 := by
            unfold Channel.said
            rw [wrote_append, wrote_got, List.append_nil]
          show c.Has _ _ (w₂.memory.2 ++ [.got me data v]) (c.said (w₂.memory.2 ++ [.got me data v])) _
          rw [hsaid]
          refine hw₂.stands.1.entered (fun data' v' hd => ?_) _
          cases hd
          exact hne rfl
        | _ =>
          simp only [deeds, List.append_nil]
          exact hw₂
      refine hw₃.update (fun e => (restored kind _ code' e).1) (fun e => (restored kind _ code' e).2.1)
        (fun e => (restored kind _ code' e).2.2.1) fun _ e he => ?_
      obtain ⟨hi, ho, -, hepoch, hrecv⟩ := restored kind _ code' e
      exact ⟨hi.trans he.inner, ho.trans he.outer, hepoch.trans he.epoch, fun hwork => hrecv (he.recv hwork)⟩

/-- What is handed to the receiver is handed to its callback, which enters its verdict. -/
theorem Served.recv_ends (hA : c.Served A) (hb : c.FairCalls b)
    {data : Option Bytes} {absent : Exec H.diarist Outcome} (hw : c.Stands .busy [data] w) :
    Ends (callback b.diarist A c.receiver .recv (.recv c.receiver data) absent) w fun v w' =>
      ∃ ds, w'.memory.2 = ds ++ [.got c.receiver data v] ∧ c.Has .busy [data] ds (c.said ds) w' ∧ w'.stack.depth = 0 := by
  obtain ⟨⟨brought, fin, P, hn, ha, hh⟩, hd⟩ := hw
  obtain ⟨e, he, her⟩ := ha.around.receiver
  obtain ⟨code, hcode⟩ := Option.ne_none_iff_exists'.1 (her.recv rfl)
  have hget : e.callbacks.get .recv = some code := hcode
  unfold callback
  simp only [ends_bind, ends_lookup, he, hget, ends_modifySlots]
  have hw₁ : c.At (.receiving data) { w with stack := w.stack.takeCallback c.receiver .recv } := by
    have haround : c.Around (.receiving data) (w.stack.takeCallback c.receiver .recv) :=
      ha.around.turns rfl fun _ e => ⟨e.inner, e.outer, e.epoch, fun hc => by cases hc⟩
    exact ⟨⟨⟨brought, fin, P, hn, ha.of_around haround rfl, hh.update fun _ _ => rfl⟩, hd⟩, by simp⟩
  refine (hA.verdict_ends (hb code (.recv c.receiver data) (.inr rfl)) hw₁ (.recv c.receiver data)).mono ?_
  rintro ⟨code', v⟩ w' ⟨w₂, hw₂, rfl⟩
  refine (ends_pure _).2 ⟨w₂.memory.2, rfl, ?_, hw₂.stands.2⟩
  obtain ⟨brought, fin, P, hn, ha, hh⟩ := hw₂.stands.1
  have haround : c.Around .busy (w₂.stack.restoreCallback c.receiver .recv e.epoch code') := by
    refine ha.around.turns rfl fun e₂ he₂ => ?_
    obtain ⟨hi, ho, -, hepoch, -⟩ := restored .recv e.epoch code' e₂
    refine ⟨hi.trans he₂.inner, ho.trans he₂.outer, hepoch.trans he₂.epoch, fun _ => ?_⟩
    -- the callbacks of the receiver were not cleared meanwhile
    rw [he₂.epoch, her.epoch, decide_eq_true rfl, Bool.true_and]
    split
    · simp [Callbacks.set]
    · rename_i hsome
      simpa [Callbacks.get] using hsome
  exact ⟨brought, fin, P, hn, ha.of_around haround rfl,
    hh.update fun _ e₂ => (restored .recv e.epoch code' e₂).2.2.1⟩

/-! ## Events that waited -/

/-- An operation that the application may ask, asked by the stack itself. -/
theorem Served.asked (hA : c.Served A) {r : Req H.diarist} (hr : c.Fair r) (hn : noted r = .ask r .done) :
    Upholds (c.At ph) (A r) := by
  have h := hA.fair ph r hr
  rw [hn, Program.run_ask] at h
  simpa using h

theorem At.noted (h : c.At ph w) (n : Note) : Ends (note b.diarist n) w fun _ w' => c.At ph w' :=
  (ends_note n).2 (h.remembers _)

theorem At.of_stands (h : c.Stands .busy [] w) : c.At .busy w := ⟨h, nofun⟩

/-- **An event of the sender** is handed to the application. -/
theorem Served.sender_told (hA : c.Served A) (hb : c.FairCalls b) {e : Event}
    (he : e.isTame = true) (hw : c.At .busy w) :
    Ends (deliverToApp b.diarist A (freeEntry b.diarist A k) c.sender e) w fun _ w' => c.At .busy w' := by
  obtain ⟨brought, fin, P, hn, ha, hh⟩ := id hw.stands.1
  have hne := ha.around.apart
  have hcall : ∀ {kind : CallbackKind} {call : Call} {absent : Exec H.diarist Outcome},
      c.Calls call → (∀ me data, call = .recv me data → me = c.sender) → Ends absent w (fun _ w' => c.At .busy w') →
      Ends (callback b.diarist A c.sender kind call absent) w fun _ w' => c.At .busy w' :=
    fun hcalls hcall habsent => hA.callback_ends hb (fun hc => absurd hc hne)
      (fun me data hc => hcall me data hc ▸ hne) hcalls habsent hw
  have hquiet : Ends (pure (.ok ()) : Exec H.diarist Outcome) w fun _ w' => c.At .busy w' := (ends_pure _).2 hw
  cases e with
  | accept | error => cases he
  | recv data =>
    unfold deliverToApp settleRecv
    simp only [ends_bind]
    refine (hcall ?_ (fun _ _ hc => by cases hc; rfl) ?_).mono fun v w₁ hw₁ => ?_
    · exact .inl rfl
    · simp only [ends_bind]
      refine (hw.noted _).mono fun _ w₁ hw₁ => ?_
      exact (hA.asked (r := .ask c.sender (.recved data.length)) (Or.inl ⟨rfl, rfl, by simp⟩) rfl w₁ hw₁).mono fun _ w₂ hw₂ => (ends_pure _).2 hw₂
    · refine (hw₁.stands.1.sender_ends (m := .settled v) trivial).mono ?_
      rintro _ w₂ ⟨h₂, hlevel⟩
      exact (ends_pure _).2 (.of_stands (h₂.of_level hlevel hw₁.stands.2))
  | connected | eof | sent | poll =>
    unfold deliverToApp
    simp only [ends_bind]
    refine (hcall ?_ (fun _ _ hc => by cases hc <;> rfl) hquiet).mono fun _ _ h => (ends_pure _).2 h
    exact .inl rfl

/-- **An event of the receiver** is handed to the application: what was offered is settled. -/
theorem Served.receiver_told (hA : c.Served A) (hb : c.FairCalls b) {e : Event}
    (he : e.isTame = true) (hw : c.Stands .busy e.offered.toList w) :
    Ends (deliverToApp b.diarist A (freeEntry b.diarist A k) c.receiver e) w fun _ w' => c.At .busy w' := by
  have hsaid : ∀ ds data v, c.said (ds ++ [.got c.receiver data v]) = c.said ds := by
    intro ds data v
    unfold Channel.said
    rw [wrote_append, wrote_got, List.append_nil]
  cases e with
  | accept | error => cases he
  | recv data =>
    unfold deliverToApp settleRecv
    simp only [ends_bind]
    refine (hA.recv_ends hb hw).mono ?_
    rintro v w₁ ⟨ds, hds, h₁, hd₁⟩
    refine h₁.settled_ends.mono ?_
    rintro _ w₂ ⟨h₂, hlevel⟩
    refine (ends_pure _).2 (.of_stands (Has.of_level ?_ hlevel hd₁))
    rw [hds, hsaid]
    exact h₂
  | eof =>
    unfold deliverToApp
    simp only [ends_bind]
    refine (hA.recv_ends hb hw).mono ?_
    rintro v w₁ ⟨ds, hds, h₁, hd₁⟩
    refine (ends_pure _).2 (.of_stands ⟨?_, hd₁⟩)
    rw [hds, hsaid]
    exact h₁.parted v
  | connected | sent | poll =>
    unfold deliverToApp
    simp only [ends_bind]
    refine (hA.callback_ends hb ?_ ?_ ?_ ((ends_pure _).2 (.of_stands hw)) (.of_stands hw)).mono
      fun _ _ h => (ends_pure _).2 h
    · rintro _ ⟨⟩
    · rintro _ _ ⟨⟩
    · exact .inr rfl

/-- **An event that waited** is handed to whom it concerns. -/
theorem Served.deliver_ends (hA : c.Served A) (hb : c.FairCalls b)
    {q : Queued H.diarist} (hq : c.Awaits q) (hw : c.Stands .busy (q.offer c.receiver).toList w) :
    Ends (deliver b.diarist A (freeEntry b.diarist A k) q) w fun _ w' => c.At .busy w' := by
  obtain ⟨source, event, route⟩ := q
  obtain ⟨hsource, htame, rfl⟩ := hq
  obtain ⟨brought, fin, P, hn, ha, hh⟩ := id hw.1
  unfold deliver
  simp only [ends_bind, ends_lookup]
  rcases hsource with rfl | rfl
  · have hwork : Queued.offer c.receiver (⟨c.sender, event, .resolve⟩ : Queued H.diarist) = none :=
      if_neg ha.around.apart
    rw [hwork] at hw
    have hat : c.At .busy w := .of_stands hw
    cases he : w.stack.find? c.sender with
    | none => exact hat.noted _
    | some e =>
      simp only [(ha.around.sender e he).outer]
      exact hA.sender_told hb htame hat
  · have hwork : Queued.offer c.receiver (⟨c.receiver, event, .resolve⟩ : Queued H.diarist) = event.offered :=
      if_pos rfl
    rw [hwork] at hw
    obtain ⟨e, he, her⟩ := ha.around.receiver
    simp only [he, her.outer]
    exact hA.receiver_told hb htame hw

/-- The queue is worked off. -/
theorem Served.drain_ends (hA : c.Served A) (hb : c.FairCalls b) (n : Nat)
    (hw : c.At .busy w) :
    Ends (drain b.diarist A (freeEntry b.diarist A k) n) w fun _ w' => c.At .busy w' ∧ w'.stack.queue = [] := by
  induction n generalizing w with
  | zero => exact ends_throw _
  | succ n ih =>
    unfold drain
    simp only [ends_bind, ends_getSlots]
    cases hq : w.stack.queue with
    | nil => exact (ends_pure _).2 ⟨hw, hq⟩
    | cons q rest =>
      simp only [ends_bind, ends_modifySlots]
      obtain ⟨⟨brought, fin, P, hn, ha, hh⟩, hd⟩ := hw.stands
      have haround : c.Around .busy { w.stack with queue := rest } :=
        ⟨ha.around.apart, ha.around.sender, ha.around.receiver,
          fun q' hq' => ha.around.queue q' (hq ▸ List.mem_cons_of_mem _ hq'), ha.around.pumping⟩
      have hout : (q.offer c.receiver).toList ++ Slots.offers { w.stack with queue := rest } c.receiver =
          Phase.busy.work ++ w.stack.offers c.receiver := by
        unfold Slots.offers
        rw [hq, List.filterMap_cons]
        cases q.offer c.receiver <;> rfl
      refine (hA.deliver_ends (w := { w with stack := { w.stack with queue := rest } }) hb (ha.around.queue q (hq ▸ List.mem_cons_self))
        ⟨⟨brought, fin, P, hn, ha.of_around haround hout, hh⟩, hd⟩).mono fun _ w₁ hw₁ => ih hw₁

/-- **After each request** the queue is worked off, unless that is being done already. -/
theorem Served.pump_ends (hA : c.Served A) (hb : c.FairCalls b) (n : Nat)
    (hw : c.Stands ph ph.work w) :
    Ends (pump b.diarist A (freeEntry b.diarist A k) n) w fun _ w' => c.At ph w' := by
  obtain ⟨⟨brought, fin, P, hn, ha, hh⟩, hd⟩ := id hw
  have hpumping := ha.around.pumping
  unfold pump
  simp only [ends_bind, ends_getSlots, hd, hpumping]
  cases ph with
  | busy | receiving => exact (ends_pure _).2 ⟨hw, by simp⟩
  | idle =>
    simp only [Phase.pumping, Nat.lt_irrefl, decide_false, Bool.or_false, Bool.false_eq_true, if_false, ends_bind,
      ends_modifySlots]
    have hbusy : c.At .busy { w with stack := { w.stack with pumping := true } } :=
      ⟨⟨⟨brought, fin, P, hn, ha.of_around (ha.around.paced rfl) rfl, hh⟩, hd⟩, by simp⟩
    refine (hA.drain_ends hb n hbusy).mono ?_
    rintro _ w₁ ⟨hw₁, hqueue⟩
    obtain ⟨⟨brought, fin, P, hn, ha, hh⟩, hd⟩ := hw₁.stands
    exact ⟨⟨⟨brought, fin, P, hn, ha.of_around (ha.around.paced rfl) rfl, hh⟩, hd⟩, fun _ => hqueue⟩

/-! ## Operations -/

/-- **A write of the sender.** What was taken is still to be entered in the diary. -/
theorem At.write_ends {n : Nat} {data : Bytes} {flags : WriteFlags} (hw : c.At ph w) :
    Ends (operate b.diarist A (freeEntry b.diarist A k) n c.sender (.write data flags)) w fun r w' =>
      (r = .ok () ∧ c.Has ph ph.work w.memory.2 (c.said w.memory.2 ++ data) w' ∨
        r ≠ .ok () ∧ c.Has ph ph.work w.memory.2 (c.said w.memory.2) w') ∧
        Level w w' ∧ w'.stack.queue = w.stack.queue := by
  show Ends (call b.diarist A (freeEntry b.diarist A k) n c.sender (.write data flags)) w _
  unfold call
  simp only [ends_bind]
  refine hw.stands.1.write_ends.mono ?_
  rintro r w₁ ⟨h₁, hlevel, hqueue⟩
  -- nothing waits for delivery, or it is being delivered
  have hquiet : w₁.stack.Quiet := by
    have hpumping : w₁.stack.pumping = ph.pumping := by
      rcases h₁ with ⟨-, _, _, _, _, ha, _⟩ | ⟨-, _, _, _, _, ha, _⟩ <;> exact ha.around.pumping
    cases ph with
    | idle => exact .inr (.inr (hqueue.trans (hw.queue rfl)))
    | busy | receiving => exact .inr (.inl hpumping)
  refine ends_pump hquiet ?_
  cases r with
  | error f =>
    rcases h₁ with ⟨hr, -⟩ | ⟨-, h₁⟩
    · cases hr
    · exact (ends_pure _).2 ⟨.inr ⟨fun hc => (by cases hc), h₁⟩, hlevel, hqueue⟩
  | ok v =>
    exact (ends_pure _).2 ⟨h₁.imp (fun h => ⟨Except.ok.inj h.1, h.2⟩) fun h => ⟨fun hv => h.1 (congrArg _ hv), h.2⟩,
      hlevel, hqueue⟩

section

variable (hA : c.Served A) (hb : c.FairCalls b) {n : Nat} {o : Op}
include hA hb

/-- A method that leaves the two connections as they are, and what it has caused. -/
theorem Served.call_ends (h : Ends (withLayer b.diarist A (freeEntry b.diarist A k) id (.op o)) w fun _ w' =>
    c.Stands ph ph.work w') :
    Ends (call b.diarist A (freeEntry b.diarist A k) n id o) w fun _ w' => c.At ph w' := by
  unfold call
  simp only [ends_bind]
  refine h.mono fun r w₁ hw₁ => (hA.pump_ends hb n hw₁).mono fun _ w₂ hw₂ => ?_
  cases r <;> exact (ends_pure _).2 hw₂

/-- **An operation of the sender**, other than a write. -/
theorem Served.sender_ends (ho : o.isCalm = true) (hwrite : ∀ data flags, o ≠ .write data flags) :
    Upholds (c.At ph) (operate b.diarist A (freeEntry b.diarist A k) n c.sender o) := by
  intro w hw
  have hcall : ∀ {w : World H.diarist}, c.At ph w →
      Ends (call b.diarist A (freeEntry b.diarist A k) n c.sender o) w fun _ w' => c.At ph w' := fun hw =>
    hA.call_ends hb ((hw.stands.1.sender_ends (m := .op o) ⟨ho, hwrite⟩).mono
      fun _ _ ⟨h, hlevel⟩ => h.of_level hlevel hw.stands.2)
  cases o with
  | abort => cases ho
  | setPoll interval =>
    unfold operate
    simp only [ends_bind, ends_getSlots]
    split
    · simp only [ends_bind, ends_modifySlots]
      exact hcall (hw.update (fun _ => rfl) (fun _ => rfl) (fun _ => rfl) fun _ _ he =>
        ⟨he.inner, he.outer, he.epoch, he.recv⟩)
    · exact (ends_pure _).2 hw
  | lower e =>
    unfold operate
    simp only [ends_bind]
    exact (hw.noted _).mono fun _ _ hw₁ => hcall hw₁
  | _ => exact hcall hw

/-- **An operation of the receiver.** -/
theorem Served.receiver_ends (ho : o.isMild = true) :
    Upholds (c.At ph) (operate b.diarist A (freeEntry b.diarist A k) n c.receiver o) := by
  intro w hw
  have hcall : ∀ {w : World H.diarist}, c.At ph w →
      Ends (call b.diarist A (freeEntry b.diarist A k) n c.receiver o) w fun _ w' => c.At ph w' := fun hw =>
    hA.call_ends hb ((hw.stands.1.mild_ends ho).mono fun _ _ ⟨h, hlevel, _⟩ => h.of_level hlevel hw.stands.2)
  cases o with
  | abort | lower => cases ho
  | setPoll interval =>
    unfold operate
    simp only [ends_bind, ends_getSlots]
    split
    · simp only [ends_bind, ends_modifySlots]
      exact hcall (hw.update (fun _ => rfl) (fun _ => rfl) (fun _ => rfl) fun _ _ he =>
        ⟨he.inner, he.outer, he.epoch, he.recv⟩)
    · exact (ends_pure _).2 hw
  | _ => exact hcall hw

/-- **What arrives at the receiver.** -/
theorem Served.arrives_ends {e : Event} (h : c.Arrives ph e w.memory.2 (c.said w.memory.2) w)
    (hd : w.stack.depth = 0) :
    Ends (operate b.diarist A (freeEntry b.diarist A k) n c.receiver (.lower e)) w fun _ w' => c.At ph w' := by
  unfold operate
  simp only [ends_bind, ends_note]
  have h₁ : c.Arrives ph e w.memory.2 (c.said w.memory.2)
    { w with memory := b.diarist.note (.trace "lower event injected" [c.receiver.field, ("event", e.label)]) w.memory } := h
  exact hA.call_ends hb (h₁.ends.mono fun _ _ h₂ =>
    Has.of_level (w := w) h₂.1 ⟨h₂.2.diary, h₂.2.depth⟩ hd)

end

/-! ## The net -/

/-- What a step of the net brings is handed to its owner. -/
theorem handed_ends {e : Event} (h : Ends (dispatch b.diarist A id (.event e)) w fun _ w' => c.At ph w') :
    Ends (do
      match ← dispatch b.diarist A id (.event e) with
      | .ok () => pure true
      | .error f => do
        note b.diarist (.trace "event not delivered" [id.field, f.field])
        pure true) w fun _ w' => c.At ph w' := by
  simp only [ends_bind]
  refine h.mono fun v w₁ hw₁ => ?_
  cases v with
  | ok _ => exact (ends_pure _).2 hw₁
  | error f =>
    simp only [ends_bind]
    exact (hw₁.noted _).mono fun _ _ hw₂ => (ends_pure _).2 hw₂

/-- **A step of the net.** -/
theorem Served.step_ends (hA : c.Served A) : Upholds (c.At ph) (stepNet b.diarist A) := by
  rintro w ⟨⟨⟨brought, fin, P, hn, ha, hh⟩, hd⟩, hq⟩
  unfold stepNet
  simp only [ends_bind, ends_get]
  cases hr : w.net.next with
  | none => exact (ends_pure _).2 ⟨⟨⟨brought, fin, P, hn, ha, hh⟩, hd⟩, hq⟩
  | some r =>
    have hsteps := hn.next_cases hr
    simp only [ends_bind, ends_modify]
    refine ends_notes _ fun m => ?_
    -- what is brought to the receiver goes to its layer
    have harrives : ∀ {n : Net} {e : Event} {brought' : Bytes} {fin' : Bool}, e.Brings brought fin brought' fin' →
        n.Streams c.source c.target c.sender c.receiver c.base (c.said w.memory.2) brought' fin' →
        Ends (dispatch b.diarist A c.receiver (.event e)) { w with net := n, memory := (m, w.memory.2) }
          fun _ w' => c.At ph w' :=
      fun hb h => hA.receiver ph _ _ ⟨brought, fin, _, _, P, hb, h, ha, hh⟩ hd hq
    -- and the sender has what it had
    have hat : ∀ {n : Net}, n.Streams c.source c.target c.sender c.receiver c.base (c.said w.memory.2) brought fin →
        c.At ph { w with net := n, memory := (m, w.memory.2) } := fun h => ⟨⟨⟨brought, fin, P, h, ha, hh⟩, hd⟩, hq⟩
    cases hsteps with
    | report hm h =>
      rcases hm with rfl | rfl
      · rcases h.sender.owner with ho | ho
        · simp only [ho]
          exact (ends_pure _).2 (hat h)
        · simp only [ho]
          exact handed_ends (hA.sender ph _ rfl _ (hat h))
      · simp only [h.receiver.owner]
        exact handed_ends (harrives (.other _ _ rfl rfl) h)
    | data hne h =>
      simp only [h.receiver.owner]
      exact handed_ends (harrives (.data _ _) h)
    | goodbye h =>
      simp only [h.receiver.owner]
      exact handed_ends (harrives (.eof _) h)
    | back h =>
      rcases h.sender.owner with ho | ho
      · simp only [ho, ends_bind, ends_modify]
        have hs := h.sender
        exact (ends_pure _).2 (hat (h.sender_changed
          ⟨hs.owner, hs.peer, hs.unsent, hs.plan, hs.parts.congr rfl rfl rfl rfl⟩ rfl rfl))
      · simp only [ho]
        exact handed_ends (hA.sender ph _ rfl _ (hat h))
    | unread h => exact (ends_pure _).2 (hat h)

/-- Steps of the net until there is nothing to do. -/
theorem Served.settle_ends (hA : c.Served A) (n done : Nat) : Upholds (c.At ph) (settleNet b.diarist A n done) := by
  induction n generalizing done with
  | zero =>
    intro w hw
    unfold settleNet
    simp only [ends_bind]
    exact (hw.noted _).mono fun _ _ hw₁ => (ends_pure _).2 hw₁
  | succ n ih =>
    intro w hw
    unfold settleNet
    simp only [ends_bind]
    refine (hA.asked (r := .step) trivial rfl w hw).mono fun r w₁ hw₁ => ?_
    cases r with
    | true => exact ih (done + 1) w₁ hw₁
    | false => exact (ends_pure _).2 hw₁

/-- Polls of the two connections. -/
theorem Served.polls_ends (hA : c.Served A) {due : List Handle} (hdue : ∀ id ∈ due, id = c.sender ∨ id = c.receiver) :
    Upholds (c.At ph) (due.forM fun id => do let _ ← dispatch b.diarist A id (.event .poll)) := by
  refine upholds_forM fun id hid w hw => ?_
  simp only [ends_bind]
  suffices h : Ends (dispatch b.diarist A id (.event .poll)) w fun _ w' => c.At ph w' from
    h.mono fun _ _ hw₁ => (ends_pure _).2 hw₁
  rcases hdue id hid with rfl | rfl
  · exact hA.sender ph .poll rfl w hw
  · obtain ⟨⟨⟨brought, fin, P, hn, ha, hh⟩, hd⟩, hq⟩ := hw
    exact hA.receiver ph .poll w ⟨brought, fin, brought, fin, P, .other _ _ rfl rfl, hn, ha, hh⟩ hd hq

/-! ## Requests -/

theorem answer_enters {free : Handle → Exec H.diarist Unit} (d : Deed) :
    Ends ((enter d).run (answer b.diarist A free k)) w fun _ w' =>
      w' = { w with memory := (w.memory.1, w.memory.2 ++ [d]) } := by
  unfold enter
  simp only [Program.run_ask, Program.run_done, answer, ends_bind, ends_get, ends_pure, ends_modify]

/-- A layer of the application's own changes; it is of neither of the two connections. -/
theorem At.modified (h : c.At ph w) {e : Entry H.diarist} {l : H.Layer} (l' : H.Layer) (he : w.stack.find? id = some e)
    (hl : e.layer = some (.custom l)) :
    c.At ph { w with stack := w.stack.update id fun e => { e with layer := some (.custom l') } } := by
  obtain ⟨⟨⟨brought, fin, P, hn, ha, hh⟩, hd⟩, hq⟩ := h
  have hs : id ≠ c.sender := by
    rintro rfl
    obtain ⟨P, hP, -⟩ := (ha.around.sender e he).layer _ hl
    cases hP
  have hr : id ≠ c.receiver := by
    rintro rfl
    obtain ⟨e', he', hl'⟩ := hh
    cases he.symm.trans he'
    cases hl.symm.trans hl'
  exact ⟨⟨⟨brought, fin, P, hn, ha.of_same (ha.around.update (fun hc => absurd hc hs) fun hc => absurd hc hr) rfl,
    hh.update fun hc => absurd hc hr⟩, hd⟩, hq⟩

/-- A request that is not entered. -/
theorem upholds_noted {r : Req H.diarist} (hn : noted r = .ask r .done) (h : Upholds (c.At ph) (A r)) :
    Upholds (c.At ph) ((noted r).run A) := by
  rw [hn, Program.run_ask]
  simpa using h

section

variable (hA : c.Served A) (hb : c.FairCalls b)
include hA hb

/-- **An operation of the application**, which enters what it has written. -/
theorem Served.noted_ends {o : Op} (ho : (id = c.sender ∧ o.isCalm = true) ∨ (id = c.receiver ∧ o.isMild = true)) :
    Upholds (c.At ph) ((noted (.ask id o)).run (answer b.diarist A (freeEntry b.diarist A k) k)) := by
  by_cases hwrite : ∃ data flags, o = .write data flags
  · obtain ⟨data, flags, rfl⟩ := hwrite
    intro w hw
    unfold noted
    rw [Program.run_ask, ends_bind]
    rcases ho with ⟨rfl, -⟩ | ⟨rfl, ho⟩
    · refine hw.write_ends.mono ?_
      rintro v w₁ ⟨h₁, hlevel, hqueue⟩
      have hd : w₁.stack.depth = 0 := hlevel.depth.trans hw.stands.2
      have hq : ph = .idle → w₁.stack.queue = [] := fun hph => hqueue.trans (hw.queue hph)
      rcases h₁ with ⟨rfl, h₁⟩ | ⟨hv, h₁⟩
      · rw [Program.run_bind, ends_bind]
        refine (answer_enters _).mono ?_
        rintro _ w₂ rfl
        refine (ends_pure _).2 ⟨⟨?_, hd⟩, hq⟩
        have hsaid : c.said (w.memory.2 ++ [.wrote c.sender data]) = c.said w.memory.2 ++ data := by
          unfold Channel.said
          rw [wrote_append, wrote_wrote, List.append_assoc]
        rw [hlevel.diary, hsaid]
        exact h₁.entered (d := .wrote c.sender data) (fun _ _ => nofun) _
      · cases v with
        | ok u => exact absurd rfl hv
        | error f => exact (ends_pure _).2 ⟨h₁.of_level hlevel hw.stands.2, hq⟩
    · refine (hA.receiver_ends hb ho w hw).mono fun v w₁ hw₁ => ?_
      cases v with
      | error f => exact (ends_pure _).2 hw₁
      | ok u =>
        rw [Program.run_bind, ends_bind]
        refine (answer_enters _).mono ?_
        rintro _ w₂ rfl
        obtain ⟨_, _, _, _, ha, _⟩ := id hw₁.stands.1
        refine (ends_pure _).2 ⟨⟨?_, hw₁.stands.2⟩, hw₁.queue⟩
        have hsaid : c.said (w₁.memory.2 ++ [.wrote c.receiver data]) = c.said w₁.memory.2 := by
          unfold Channel.said
          rw [wrote_append, wrote_wrote_of_ne ha.around.apart.symm, List.append_nil]
        rw [hsaid]
        exact hw₁.stands.1.entered (d := .wrote c.receiver data) (fun _ _ => nofun) _
  · have hne : ∀ data flags, o ≠ .write data flags := fun data flags hc => hwrite ⟨data, flags, hc⟩
    have hn : noted (.ask id o : Req H.diarist) = .ask (.ask id o) .done := by
      cases o with
      | write data flags => exact absurd rfl (hne data flags)
      | _ => rfl
    refine upholds_noted hn ?_
    rcases ho with ⟨rfl, ho⟩ | ⟨rfl, ho⟩
    · exact hA.sender_ends hb ho hne
    · exact hA.receiver_ends hb ho

/-- **What each request leads to leaves the two connections as they are**, if what the requests that it makes lead to
does. -/
theorem Served.answer : c.Served (answer b.diarist A (freeEntry b.diarist A k) k) where
  fair ph r hr := by
    cases r with
    | ask id o => exact hA.noted_ends hb (hr.imp_left fun h => ⟨h.1, h.2.1⟩)
    | insert | wrap | openPcb | dispatch | pcb => cases hr
    | register id kind code =>
      refine upholds_noted rfl fun w hw => ?_
      simp only [Stack.answer, ends_bind, ends_getSlots]
      split
      · simp only [ends_bind, ends_modifySlots, ends_pure]
        refine hw.update (fun _ => rfl) (fun _ => rfl) (fun _ => rfl) fun _ e he =>
          ⟨he.inner, he.outer, he.epoch, fun hwork => ?_⟩
        have hrecv := he.recv hwork
        cases kind with
        | recv => simp [Callbacks.set]
        | _ => exact hrecv
      · exact (ends_pure _).2 hw
    | clearCallbacks id =>
      refine upholds_noted rfl fun w hw => ?_
      simp only [Stack.answer, ends_modifySlots]
      exact hw.update (fun _ => rfl) (fun _ => rfl) (fun _ => rfl) fun hc => absurd hc hr
    | lookup id => exact upholds_noted rfl fun w hw => (ends_lookup id).2 hw
    | modifyLayer id f =>
      refine upholds_noted rfl fun w hw => ?_
      simp only [Stack.answer, ends_bind, ends_lookup]
      split
      · rename_i l hl
        obtain ⟨e, he, hl⟩ := Option.bind_eq_some_iff.1 hl
        simp only [ends_bind, ends_modifySlots, ends_pure]
        exact hw.modified (f l) he hl
      · exact (ends_pure _).2 hw
    | slots => exact upholds_noted rfl fun w hw => ends_getSlots.2 hw
    | newPcb =>
      refine upholds_noted rfl fun w hw => ?_
      simp only [Stack.answer, ends_bind, ends_get, ends_modify, ends_pure]
      exact hw.net w.memory.1 fun _ _ h => h.add_default
    | step => exact upholds_noted rfl hA.step_ends
    | settle => exact upholds_noted rfl (hA.settle_ends _ _)
    | tick =>
      refine upholds_noted rfl fun w hw => ?_
      simp only [Stack.answer, ends_bind, ends_get, ends_modify]
      obtain ⟨⟨⟨brought, fin, P, hn, ha, hh⟩, hd⟩, hq⟩ := id hw
      exact hA.polls_ends hn.tick.2 _ (hw.net w.memory.1 fun _ _ h => h.tick.1)
    | net =>
      refine upholds_noted rfl fun w hw => ?_
      simp only [Stack.answer, ends_bind, ends_get, ends_pure]
      exact hw
    | split id sizes =>
      refine upholds_noted rfl fun w hw => ?_
      simp only [Stack.answer, ends_bind, ends_get, ends_modify, ends_pure]
      exact hw.net w.memory.1 fun _ _ h => h.split id sizes
    | failCloses id count =>
      refine upholds_noted rfl fun w hw => ?_
      simp only [Stack.answer, ends_bind, ends_get, ends_modify, ends_pure]
      exact hw.net w.memory.1 fun _ _ h => h.failCloses id count
    | newEngine config name =>
      refine upholds_noted rfl fun w hw => ?_
      simp only [Stack.answer, Stack.newEngine, ends_bind, ends_get, ends_modify, ends_pure]
      exact ⟨hw.stands, hw.queue⟩
    | shared =>
      refine upholds_noted rfl fun w hw => ?_
      simp only [Stack.answer, ends_bind, ends_get, ends_pure]
      exact hw
    | setShared v => exact upholds_noted rfl fun w hw => (ends_modify _).2 ⟨hw.stands, hw.queue⟩
    | «recall» =>
      refine upholds_noted rfl fun w hw => ?_
      simp only [Stack.answer, ends_bind, ends_get, ends_pure]
      exact hw
    | remember m =>
      intro w hw
      simp only [noted, Program.run_ask, Program.run_done, Stack.answer, ends_bind, ends_get, ends_pure, ends_modify]
      exact hw.remembers m.1
    | note n => exact upholds_noted rfl fun w hw => hw.noted n
  sender ph e he := hA.sender_ends (o := .lower e) hb he nofun
  receiver ph e w h hd hq := hA.arrives_ends hb h hd
  enters d w := answer_enters d

end

/-- Every request asks the stack for something. -/
theorem exists_ask (r : Req H.diarist) : ∃ q next, noted r = .ask q next := by
  cases r with
  | ask id o => cases o <;> exact ⟨_, _, rfl⟩
  | _ => exact ⟨_, _, rfl⟩

/-- **Every fair request leaves the two connections as they are.** -/
theorem exec_served (hb : c.FairCalls b) (k : Nat) :
    c.Served (exec b.diarist k) := by
  induction k with
  | zero =>
    refine ⟨fun ph r _ w _ => ?_, fun _ _ _ _ _ => ends_throw _, fun _ _ _ _ _ _ => ends_throw _, fun d w => ?_⟩
    · obtain ⟨q, next, hq⟩ := exists_ask r
      rw [hq, Program.run_ask]
      exact (ends_bind _ _).2 (ends_throw _)
    · exact (ends_bind _ _).2 (ends_throw _)
  | succ k ih => exact ih.answer hb

/-- **Every fair application leaves the two connections as they are.** -/
theorem run_upholds {α : Type} (hb : c.FairCalls b) {p : Act H.diarist α}
    (hp : p.Asks c.Fair) (k : Nat) : Upholds (c.At ph) (run b.diarist k (withDiary p)) := by
  have hrun : run b.diarist k (withDiary p) = p.run fun r => (noted r).run (exec b.diarist k) := Program.run_run _ _ _
  rw [hrun]
  exact upholds_run ((exec_served hb k).fair ph) hp

end Channel

end Stack

end Conduit
