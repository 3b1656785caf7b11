import Conduit.Proofs.Loopback.Streams

/-!
# How two endpoints part

Two endpoints that are joined write, acknowledge, and close their write halves or the whole of themselves, in any order
and at any moment. Each says goodbye once; when both have, both are at rest. Nobody resets either of them, unless one is
closed that has already come to its end: its peer lingers then, and is told that the connection is gone.

* `Pcb.Stage`: the states of an endpoint, told by which goodbyes were said.
* `Net.Paired`: two endpoints that are joined, of which none is going to be reset.
* `Paired.perform`, `Paired.next`: an operation, and a step, lead from one such net to the next.
* `Paired.deals`: **whatever happens, neither of the two is reset, and nothing that was written at them is lost.**
* `Net.connect_met`, `Met.next`: an open that is met by a listener joins two endpoints in this way.
* `Net.late_close_resets`: a close that comes too late resets the peer.
-/

namespace Conduit.Loopback

/-- The state of an endpoint of which the flags tell whether it has said goodbye and whether it was said to it. -/
inductive Pcb.Stage (p : Pcb) : (said heard : Bool) → Prop
  | talking (hs : p.state = .established) (hq : p.finQueued = false) : Stage p false false
  | answering (hs : p.state = .closeWait) (hq : p.finQueued = false) : Stage p false true
  | leaving (hs : p.state = .finWait1) (hq : p.finQueued = true) : Stage p false false
  | following (hs : p.state = .closing ∨ p.state = .lastAck) (hq : p.finQueued = true) : Stage p false true
  | waiting (hs : p.state = .finWait2) (hq : p.finQueued = true) : Stage p true false
  | parted (hs : p.state = .timeWait ∨ p.state = .closed) (hq : p.finQueued = true) : Stage p true true

/-- An endpoint that is joined to the endpoint `j`. Its goodbye comes after all its data. -/
structure Pcb.Converses (j : Nat) (said heard : Bool) (p : Pcb) : Prop where
  peer : p.peer = some j
  finSent : p.finSent = said
  stage : p.Stage said heard
  unsent : p.unsent.WellFormed
  silent : said = true → p.unsent.toList = []

/-- An endpoint that differs from another in nothing that its peer could learn of. -/
structure Pcb.Alike (p q : Pcb) : Prop where
  peer : q.peer = p.peer
  finSent : q.finSent = p.finSent
  state : q.state = p.state
  finQueued : q.finQueued = p.finQueued
  unsent : q.unsent = p.unsent
  written : q.written = p.written
  received : q.received = p.received

/-- An action that concerns none of the endpoints `i` and `j`, or a report of data that was sent. -/
def Action.Spares (i j : Nat) : Action → Prop
  | .connected m | .reset m => m ≠ i ∧ m ≠ j
  | .accept _ _ | .sent _ _ => True

/-- An endpoint that is joined to neither of the endpoints `i` and `j`. -/
def Pcb.Apart (i j : Nat) (p : Pcb) : Prop := p.peer ≠ some i ∧ p.peer ≠ some j

/-- Two endpoints that are joined, of which none is going to be reset; the flags say which of them has said goodbye. What
was written at either is not sent yet, or was received at the other. -/
structure Net.Paired (i j : Nat) (said heard : Bool) (n : Net) : Prop where
  left : (n.pcb i).Converses j said heard
  right : (n.pcb j).Converses i heard said
  ne : i ≠ j
  apart : ∀ m, m ≠ i → m ≠ j → (n.pcb m).Apart i j
  actions : ∀ a ∈ n.actions, a.Spares i j
  there : (n.pcb i).written = (n.pcb i).unsent.size + (n.pcb j).received
  back : (n.pcb j).written = (n.pcb j).unsent.size + (n.pcb i).received

/-- What a step brings to whom, if it does not reset the endpoint `i` or `j`. -/
def Kept (i j : Nat) (brought : Nat × Delivery) : Prop := brought.2 = .reset → brought.1 ≠ i ∧ brought.1 ≠ j

/-- What may be done with an endpoint: one of the two is neither aborted nor made part of another connection, and it is
not closed once it has come to its end. -/
def Net.Permits (i j : Nat) (n : Net) (m : Nat) (o : PcbOp) : Prop :=
  m = i ∨ m = j → o.isCalm = true ∧ (o = .close → (n.pcb m).state ≠ .closed)

variable {n n' : Net} {i j m : Nat} {said heard : Bool} {p q : Pcb} {f : Pcb → Pcb} {a : Action}

theorem Pcb.Alike.refl (p : Pcb) : p.Alike p := ⟨rfl, rfl, rfl, rfl, rfl, rfl, rfl⟩

theorem Pcb.Alike.trans {r : Pcb} (h : p.Alike q) (h' : q.Alike r) : p.Alike r :=
  ⟨h'.peer.trans h.peer, h'.finSent.trans h.finSent, h'.state.trans h.state, h'.finQueued.trans h.finQueued,
    h'.unsent.trans h.unsent, h'.written.trans h.written, h'.received.trans h.received⟩

theorem Pcb.Stage.congr (h : p.Stage said heard) (hs : q.state = p.state) (hq : q.finQueued = p.finQueued) :
    q.Stage said heard := by
  cases h with
  | talking hs' hq' => exact .talking (hs.trans hs') (hq.trans hq')
  | answering hs' hq' => exact .answering (hs.trans hs') (hq.trans hq')
  | leaving hs' hq' => exact .leaving (hs.trans hs') (hq.trans hq')
  | following hs' hq' => exact .following (hs ▸ hs') (hq.trans hq')
  | waiting hs' hq' => exact .waiting (hs.trans hs') (hq.trans hq')
  | parted hs' hq' => exact .parted (hs ▸ hs') (hq.trans hq')

theorem Pcb.Converses.congr (h : p.Converses j said heard) (hq : p.Alike q) : q.Converses j said heard :=
  ⟨hq.peer.trans h.peer, hq.finSent.trans h.finSent, h.stage.congr hq.state hq.finQueued, hq.unsent ▸ h.unsent,
    hq.unsent ▸ h.silent⟩

/-- An endpoint with an open write half is going to say goodbye. -/
theorem Pcb.Converses.shut (h : p.Converses j said heard) {s : TcpState}
    (hs : p.state = .established ∧ s = .finWait1 ∨ p.state = .closeWait ∧ s = .lastAck) :
    ({ p with finQueued := true, state := s } : Pcb).Converses j said heard := by
  refine ⟨h.peer, h.finSent, ?_, h.unsent, h.silent⟩
  rcases hs with ⟨hs, rfl⟩ | ⟨hs, rfl⟩
  · cases h.stage with
    | talking => exact .leaving rfl rfl
    | answering hs' | leaving hs' | waiting hs' => simp [hs] at hs'
    | following hs' | parted hs' => simp [hs] at hs'
  · cases h.stage with
    | answering => exact .following (.inr rfl) rfl
    | talking hs' | leaving hs' | waiting hs' => simp [hs] at hs'
    | following hs' | parted hs' => simp [hs] at hs'

/-- An endpoint that had a goodbye to say has said it. -/
theorem Pcb.Stage.says (h : p.Stage false heard) (hq : p.finQueued = true) {o : Option Handle} :
    ({ p with finSent := true, state := Net.afterFinSent p.state, owner := o } : Pcb).Stage true heard := by
  cases h with
  | talking _ hq' | answering _ hq' => simp [hq] at hq'
  | leaving hs => exact .waiting (congrArg Net.afterFinSent hs) hq
  | following hs =>
    rcases hs with hs | hs <;> exact .parted (.inr (congrArg Net.afterFinSent hs)) hq

/-- An endpoint to which goodbye was said. -/
theorem Pcb.Stage.hears (h : p.Stage said false) :
    ({ p with finReceived := true, state := Net.afterFinReceived p.state } : Pcb).Stage said true := by
  cases h with
  | talking hs hq => exact .answering (congrArg Net.afterFinReceived hs) hq
  | leaving hs hq => exact .following (.inl (congrArg Net.afterFinReceived hs)) hq
  | waiting hs hq => exact .parted (.inl (congrArg Net.afterFinReceived hs)) hq

theorem Action.Spares.symm (h : a.Spares i j) : a.Spares j i := by
  cases a with
  | connected | reset => exact And.symm h
  | accept | sent => trivial

theorem Kept.symm {brought : Nat × Delivery} (h : Kept i j brought) : Kept j i brought := fun hr => (h hr).symm

theorem Kept.event {e : Event} : Kept i j (m, .event e) := nofun

theorem Kept.nothing : Kept i j (m, .nothing) := nofun

namespace Net

/-- An endpoint that is changed in nothing that its peer could learn of. -/
theorem alike_update (hf : (n.pcb m).Alike (f (n.pcb m))) (k : Nat) : (n.pcb k).Alike ((n.update m f).pcb k) := by
  by_cases hk : k = m
  · subst hk
    rcases Nat.lt_or_ge k n.pcbs.size with hlt | hge
    · rw [pcb_update_self hlt]
      exact hf
    · rw [pcb_of_size_le hge, pcb_of_size_le (by simpa using hge)]
      exact .refl _
  · rw [pcb_update_of_ne hk]
    exact .refl _

theorem allocPort_ok {port : Nat} (hr : n.allocPort = .ok (port, n')) : ∃ k, n' = { n with nextPort := k } := by
  unfold Net.allocPort at hr
  split at hr
  · cases hr
    exact ⟨_, rfl⟩
  · cases hr

/-- An endpoint that is given an address is not changed in what its peer could learn of. -/
theorem ensureLocal_ok {addr : Endpoint} (hr : n.ensureLocal m = .ok (addr, n')) :
    (∀ k, (n.pcb k).Alike (n'.pcb k)) ∧ n'.pcbs.size = n.pcbs.size ∧ n'.actions = n.actions ∧
      n'.listeners = n.listeners := by
  unfold Net.ensureLocal at hr
  split at hr
  · cases hr
    exact ⟨fun _ => .refl _, rfl, rfl, rfl⟩
  · cases ha : n.allocPort with
    | error => rw [ha] at hr; cases hr
    | ok r =>
      obtain ⟨k, hk⟩ := allocPort_ok ha
      rw [ha] at hr
      cases hr
      refine ⟨fun k => ?_, by simp [hk], by simp [hk], by rw [hk]; rfl⟩
      have h₁ := alike_update (n := r.2) (m := m) (f := fun p => { p with localAddr := some { ip := .loopback, port := r.1 } })
        ⟨rfl, rfl, rfl, rfl, rfl, rfl, rfl⟩ k
      rw [hk] at h₁ ⊢
      exact h₁

namespace Paired

theorem symm (h : n.Paired i j said heard) : n.Paired j i heard said :=
  ⟨h.right, h.left, h.ne.symm, fun m h₁ h₂ => (h.apart m h₂ h₁).symm, fun a ha => (h.actions a ha).symm, h.back, h.there⟩

theorem leftSize (h : n.Paired i j said heard) : i < n.pcbs.size := lt_size_of_peer h.left.peer

theorem rightSize (h : n.Paired i j said heard) : j < n.pcbs.size := lt_size_of_peer h.right.peer

/-- Endpoints have changed in nothing that their peers could learn of. -/
theorem congr (h : n.Paired i j said heard) (hp : ∀ m, (n.pcb m).Alike (n'.pcb m))
    (ha : ∀ a ∈ n'.actions, a.Spares i j) : n'.Paired i j said heard := by
  refine ⟨h.left.congr (hp i), h.right.congr (hp j), h.ne, fun m h₁ h₂ => ?_, ha, ?_, ?_⟩
  · unfold Pcb.Apart
    rw [(hp m).peer]
    exact h.apart m h₁ h₂
  · rw [(hp i).written, (hp i).unsent, (hp j).received]
    exact h.there
  · rw [(hp j).written, (hp j).unsent, (hp i).received]
    exact h.back

theorem alike (h : n.Paired i j said heard) (hf : (n.pcb m).Alike (f (n.pcb m))) :
    (n.update m f).Paired i j said heard :=
  h.congr (alike_update hf) h.actions

theorem pend (h : n.Paired i j said heard) (ha : a.Spares i j) : (n.pend a).Paired i j said heard := by
  refine h.congr (fun m => .refl _) fun b hb => ?_
  rcases List.mem_append.1 hb with hb | hb
  · exact h.actions b hb
  · exact List.mem_singleton.1 hb ▸ ha

/-- The first action is not pending any more. -/
theorem settled (h : n.Paired i j said heard) {rest : List Action} (hr : n.actions = a :: rest) :
    { n with actions := rest }.Paired i j said heard :=
  h.congr (fun _ => .refl _) fun b hb => h.actions b (hr ▸ List.mem_cons_of_mem _ hb)

/-- Another endpoint has changed. -/
theorem other (h : n.Paired i j said heard) (hi : m ≠ i) (hj : m ≠ j) (hf : (f (n.pcb m)).Apart i j) :
    (n.update m f).Paired i j said heard := by
  have hpi : (n.update m f).pcb i = n.pcb i := pcb_update_of_ne hi.symm
  have hpj : (n.update m f).pcb j = n.pcb j := pcb_update_of_ne hj.symm
  refine ⟨hpi ▸ h.left, hpj ▸ h.right, h.ne, fun k h₁ h₂ => ?_, h.actions, ?_, ?_⟩
  · by_cases hk : k = m
    · subst hk
      rcases Nat.lt_or_ge k n.pcbs.size with hlt | hge
      · rw [pcb_update_self hlt]
        exact hf
      · rw [pcb_of_size_le (by simpa using hge)]
        exact ⟨nofun, nofun⟩
    · rw [pcb_update_of_ne hk]
      exact h.apart k h₁ h₂
  · rw [hpi, hpj]
    exact h.there
  · rw [hpi, hpj]
    exact h.back

/-- A new endpoint. -/
theorem add (h : n.Paired i j said heard) (hp : p.Apart i j) : (n.add p).2.Paired i j said heard := by
  have hpcb : ∀ {k}, k < n.pcbs.size → (n.add p).2.pcb k = n.pcb k := fun hk => by
    rw [pcb_add, if_neg (Nat.ne_of_lt hk)]
  refine ⟨hpcb h.leftSize ▸ h.left, hpcb h.rightSize ▸ h.right, h.ne, fun k h₁ h₂ => ?_, h.actions, ?_, ?_⟩
  · rw [pcb_add]
    split
    · exact hp
    · exact h.apart k h₁ h₂
  · rw [hpcb h.leftSize, hpcb h.rightSize]
    exact h.there
  · rw [hpcb h.leftSize, hpcb h.rightSize]
    exact h.back

/-! ## Operations of the two -/

/-- One of the two has changed. -/
theorem own (h : n.Paired i j said heard) (hf : (f (n.pcb i)).Converses j said heard)
    (hw : (f (n.pcb i)).written = (f (n.pcb i)).unsent.size + (n.pcb j).received)
    (hr : (f (n.pcb i)).received = (n.pcb i).received) : (n.update i f).Paired i j said heard := by
  have hi : (n.update i f).pcb i = f (n.pcb i) := pcb_update_self h.leftSize
  have hj : (n.update i f).pcb j = n.pcb j := pcb_update_of_ne h.ne.symm
  refine ⟨hi ▸ hf, hj ▸ h.right, h.ne, fun m h₁ h₂ => ?_, h.actions, ?_, ?_⟩
  · rw [pcb_update_of_ne h₁]
    exact h.apart m h₁ h₂
  · rw [hi, hj]
    exact hw
  · rw [hi, hj, hr]
    exact h.back

/-- One of the two, with an open write half, is going to say goodbye. -/
theorem shut (h : n.Paired i j said heard) {s : TcpState}
    (hs : (n.pcb i).state = .established ∧ s = .finWait1 ∨ (n.pcb i).state = .closeWait ∧ s = .lastAck) :
    (n.update i fun p => { p with finQueued := true, state := s }).Paired i j said heard :=
  h.own (h.left.shut hs) h.there rfl

theorem write (h : n.Paired i j said heard) (data : Bytes) : (n.write i data).1.Paired i j said heard := by
  have hl := h.left
  unfold Net.write
  simp only
  split
  · exact h
  · rename_i hopen
    split
    · exact h
    · split
      · exact h
      · refine h.own ⟨hl.peer, hl.finSent, hl.stage.congr rfl rfl, hl.unsent.push, fun hsaid => ?_⟩ ?_ rfl
        · -- one that has said goodbye takes nothing
          subst hsaid
          cases hl.stage with
          | waiting _ hq | parted _ hq => simp [hq] at hopen
        · show (n.pcb i).written + data.length = ((n.pcb i).unsent.push data).size + (n.pcb j).received
          rw [Segments.size_push, h.there]
          omega

/-- A close of one of the two that has not come to its end: it says goodbye, or has been going to. -/
theorem close (h : n.Paired i j said heard) (hs : (n.pcb i).state ≠ .closed) :
    (n.close i).1.Paired i j said heard := by
  unfold Net.close
  simp only
  split
  · exact h.alike ⟨rfl, rfl, rfl, rfl, rfl, rfl, rfl⟩
  · have h₁ : (n.update i fun p => { p with rxClosed := true }).Paired i j said heard :=
      h.alike ⟨rfl, rfl, rfl, rfl, rfl, rfl, rfl⟩
    have hself : ((n.update i fun p => { p with rxClosed := true }).pcb i).state = (n.pcb i).state := by
      rw [pcb_update_self h.leftSize]
    cases h.left.stage with
    | talking hst =>
      rw [hst]
      exact h₁.shut (.inl ⟨hself.trans hst, rfl⟩)
    | answering hst =>
      rw [hst]
      exact h₁.shut (.inr ⟨hself.trans hst, rfl⟩)
    | leaving hst | waiting hst =>
      rw [hst]
      exact h₁
    | following hst =>
      rcases hst with hst | hst <;> rw [hst] <;> exact h₁
    | parted hst =>
      rcases hst with hst | hst
      · rw [hst]
        exact h₁
      · exact absurd hst hs

theorem shutdown (h : n.Paired i j said heard) (dir : Direction) : (n.shutdown i dir).1.Paired i j said heard := by
  have h₁ : (if dir = .write then n else n.update i fun p => { p with rxClosed := true }).Paired i j said heard := by
    split
    · exact h
    · exact h.alike ⟨rfl, rfl, rfl, rfl, rfl, rfl, rfl⟩
  unfold Net.shutdown
  simp only
  generalize (if dir = .write then n else n.update i fun p => { p with rxClosed := true }) = n₁ at h₁
  split
  · exact h₁
  · split
    · rename_i hst
      exact h₁.shut (.inl ⟨hst, rfl⟩)
    · rename_i hst
      exact h₁.shut (.inr ⟨hst, rfl⟩)
    · exact h₁

theorem perform_left (h : n.Paired i j said heard) {o : PcbOp} {res : Result o.Reply} (ho : o.isCalm = true)
    (hc : o = .close → (n.pcb i).state ≠ .closed) (hr : n.perform i o = .ok res) :
    res.net.Paired i j said heard := by
  cases o with
  | bind | connect | listen | abort => cases ho
  | write data =>
    cases hr
    exact h.write data
  | output | mss | sndbuf | sndqueuelen | nagleDisabled | localAddr | remoteAddr | state =>
    cases hr
    exact h
  | recved len =>
    unfold Net.perform recved at hr
    simp only at hr
    split at hr
    · cases hr
    · cases hr
      exact h.alike ⟨rfl, rfl, rfl, rfl, rfl, rfl, rfl⟩
  | close =>
    cases hr
    exact h.close (hc rfl)
  | shutdown dir =>
    cases hr
    exact h.shutdown dir
  | setNagle | setPrio | setPollInterval | detach =>
    cases hr
    exact h.alike ⟨rfl, rfl, rfl, rfl, rfl, rfl, rfl⟩
  | attach id =>
    cases hr
    refine h.alike ?_
    split <;> exact ⟨rfl, rfl, rfl, rfl, rfl, rfl, rfl⟩

/-! ## Operations of another endpoint -/

theorem release (h : n.Paired i j said heard) (hi : m ≠ i) (hj : m ≠ j) : (n.release m).Paired i j said heard := by
  have h₁ : (n.update m fun p =>
      { p with state := .closed, owner := none, unsent := .empty, splitPlan := [] }).Paired i j said heard :=
    h.other hi hj (h.apart m hi hj)
  unfold Net.release
  simp only
  split
  · split
    · exact h₁.congr (fun _ => .refl _) h₁.actions
    · exact h₁
  · exact h₁

/-- Another endpoint has a peer of its own to reset. -/
theorem abort (h : n.Paired i j said heard) (hi : m ≠ i) (hj : m ≠ j) : (n.abort m).Paired i j said heard := by
  unfold Net.abort
  refine release ?_ hi hj
  obtain ⟨hpi, hpj⟩ := h.apart m hi hj
  unfold resetPeer
  split
  · rename_i k hk
    split
    · refine h.pend ⟨?_, ?_⟩
      · rintro rfl
        exact hpi hk
      · rintro rfl
        exact hpj hk
    · exact h
  · exact h

theorem ensureLocal (h : n.Paired i j said heard) {addr : Endpoint} (hr : n.ensureLocal m = .ok (addr, n')) :
    n'.Paired i j said heard := by
  obtain ⟨hp, -, ha, -⟩ := ensureLocal_ok hr
  exact h.congr hp (ha ▸ h.actions)

theorem bind (h : n.Paired i j said heard) {addr : Endpoint} {res : Result Outcome} (hr : n.bind m addr = .ok res) :
    res.net.Paired i j said heard := by
  unfold Net.bind at hr
  split at hr
  · cases ha : n.allocPort with
    | error => rw [ha] at hr; cases hr
    | ok r =>
      obtain ⟨k, hk⟩ := allocPort_ok ha
      rw [ha] at hr
      cases hr
      have h₁ : r.2.Paired i j said heard := hk ▸ h.congr (fun _ => .refl _) h.actions
      exact h₁.alike ⟨rfl, rfl, rfl, rfl, rfl, rfl, rfl⟩
  · split at hr <;> cases hr
    · exact h
    · exact h.alike ⟨rfl, rfl, rfl, rfl, rfl, rfl, rfl⟩

theorem listen (h : n.Paired i j said heard) (hi : m ≠ i) (hj : m ≠ j) {res : Result Outcome}
    (hr : n.listen m = .ok res) : res.net.Paired i j said heard := by
  unfold Net.listen at hr
  cases ha : n.ensureLocal m with
  | error => rw [ha] at hr; cases hr
  | ok r =>
    have h₁ := h.ensureLocal ha
    rw [ha] at hr
    change (if _ then _ else _) = _ at hr
    split at hr <;> cases hr
    · exact h₁
    · refine Paired.other ?_ hi hj (h₁.apart m hi hj)
      exact h₁.congr (fun _ => .refl _) h₁.actions

theorem connect (h : n.Paired i j said heard) (hi : m ≠ i) (hj : m ≠ j) {addr : Endpoint} {res : Result Outcome}
    (hr : n.connect m addr = .ok res) : res.net.Paired i j said heard := by
  unfold Net.connect at hr
  split at hr
  · cases hr
    exact h
  · cases ha : n.ensureLocal m with
    | error => rw [ha] at hr; cases hr
    | ok r =>
      have h₁ := h.ensureLocal ha
      rw [ha] at hr
      dsimp only [Bind.bind, Except.bind] at hr
      have h₂ : (r.2.update m fun p => { p with remoteAddr := some addr, state := .synSent }).Paired i j said heard :=
        h₁.other hi hj (h₁.apart m hi hj)
      split at hr
      · cases hr
        exact h₂.pend ⟨hi, hj⟩
      · cases hr
        refine Paired.pend (Paired.pend (Paired.other (Paired.add h₂ ?_) hi hj ?_) ⟨hi, hj⟩) trivial
        · -- the new endpoint is joined to `m`
          exact ⟨fun he => hi (Option.some.inj he), fun he => hj (Option.some.inj he)⟩
        · -- and `m` to the new endpoint, which comes after all others
          exact ⟨fun he => Nat.ne_of_gt h₂.leftSize (Option.some.inj he),
            fun he => Nat.ne_of_gt h₂.rightSize (Option.some.inj he)⟩

theorem close_other (h : n.Paired i j said heard) (hi : m ≠ i) (hj : m ≠ j) : (n.close m).1.Paired i j said heard := by
  unfold Net.close
  simp only
  split
  · exact h.other hi hj (h.apart m hi hj)
  · have h₁ : (n.update m fun p => { p with rxClosed := true }).Paired i j said heard :=
      h.other hi hj (h.apart m hi hj)
    cases (n.pcb m).state with
    | established | synReceived | closeWait => exact h₁.other hi hj (h₁.apart m hi hj)
    | finWait1 | finWait2 | closing | lastAck | timeWait => exact h₁
    | closed | listen | synSent => exact h₁.abort hi hj

theorem shutdown_other (h : n.Paired i j said heard) (hi : m ≠ i) (hj : m ≠ j) (dir : Direction) :
    (n.shutdown m dir).1.Paired i j said heard := by
  have h₁ : (if dir = .write then n else n.update m fun p => { p with rxClosed := true }).Paired i j said heard := by
    split
    · exact h
    · exact h.other hi hj (h.apart m hi hj)
  unfold Net.shutdown
  simp only
  generalize (if dir = .write then n else n.update m fun p => { p with rxClosed := true }) = n₁ at h₁
  split
  · exact h₁
  · split
    · exact h₁.other hi hj (h₁.apart m hi hj)
    · exact h₁.other hi hj (h₁.apart m hi hj)
    · exact h₁

theorem perform_other (h : n.Paired i j said heard) (hi : m ≠ i) (hj : m ≠ j) {o : PcbOp} {res : Result o.Reply}
    (hr : n.perform m o = .ok res) : res.net.Paired i j said heard := by
  have hm := h.apart m hi hj
  cases o with
  | bind => exact h.bind hr
  | connect => exact h.connect hi hj hr
  | listen => exact h.listen hi hj hr
  | abort =>
    cases hr
    exact h.abort hi hj
  | write data =>
    cases hr
    show (n.write m data).1.Paired i j said heard
    unfold Net.write
    simp only
    split
    · exact h
    · split
      · exact h
      · split
        · exact h
        · exact h.other hi hj hm
  | output | mss | sndbuf | sndqueuelen | nagleDisabled | localAddr | remoteAddr | state =>
    cases hr
    exact h
  | recved len =>
    unfold Net.perform recved at hr
    simp only at hr
    split at hr
    · cases hr
    · cases hr
      exact h.other hi hj hm
  | close =>
    cases hr
    exact h.close_other hi hj
  | shutdown dir =>
    cases hr
    exact h.shutdown_other hi hj dir
  | setNagle | setPrio | setPollInterval | detach =>
    cases hr
    exact h.other hi hj hm
  | attach id =>
    cases hr
    refine h.alike ?_
    split <;> exact ⟨rfl, rfl, rfl, rfl, rfl, rfl, rfl⟩

/-- **An operation** that is permitted. -/
theorem perform (h : n.Paired i j said heard) {o : PcbOp} {res : Result o.Reply} (hp : n.Permits i j m o)
    (hr : n.perform m o = .ok res) : res.net.Paired i j said heard := by
  by_cases hi : m = i
  · subst hi
    exact h.perform_left (hp (.inl rfl)).1 (hp (.inl rfl)).2 hr
  · by_cases hj : m = j
    · subst hj
      exact (h.symm.perform_left (hp (.inr rfl)).1 (hp (.inr rfl)).2 hr).symm
    · exact h.perform_other hi hj hr

/-! ## Steps -/

/-- Both have changed. -/
theorem both (h : n.Paired i j said heard) {said' heard' : Bool} {g : Pcb → Pcb}
    (hf : (f (n.pcb i)).Converses j said' heard') (hg : (g (n.pcb j)).Converses i heard' said')
    (ht : (f (n.pcb i)).written = (f (n.pcb i)).unsent.size + (g (n.pcb j)).received)
    (hb : (g (n.pcb j)).written = (g (n.pcb j)).unsent.size + (f (n.pcb i)).received) :
    ((n.update i f).update j g).Paired i j said' heard' := by
  have hi : ((n.update i f).update j g).pcb i = f (n.pcb i) := by
    rw [pcb_update_of_ne h.ne, pcb_update_self h.leftSize]
  have hj : ((n.update i f).update j g).pcb j = g (n.pcb j) := by
    rw [pcb_update_self (by simpa using h.rightSize), pcb_update_of_ne h.ne.symm]
  refine ⟨hi ▸ hf, hj ▸ hg, h.ne, fun m h₁ h₂ => ?_, h.actions, ?_, ?_⟩
  · rw [pcb_update_of_ne h₂, pcb_update_of_ne h₁]
    exact h.apart m h₁ h₂
  · rw [hi, hj]
    exact ht
  · rw [hi, hj]
    exact hb

/-- **One of the two sends a segment**: the other has received what is not waiting any more. -/
theorem sendSegment (h : n.Paired i j said heard) {res : Result (Nat × Delivery)} (hr : n.sendSegment i j = some res) :
    res.net.Paired i j said heard ∧ (res.value = (j, .nothing) ∨ ∃ text, res.value = (j, .event (.recv text))) := by
  have hl := h.left
  have hle := n.room_le (n.pcb i) (n.pcb j)
  unfold Net.sendSegment at hr
  simp only at hr
  generalize n.room (n.pcb i) (n.pcb j) = chunk at hr hle
  split at hr
  · cases hr
  · obtain ⟨-, hdrop, hw⟩ := Segments.read_eq hl.unsent (n := chunk)
    have hsize : ((n.pcb i).unsent.read chunk).2.size = (n.pcb i).unsent.size - chunk := by
      rw [hw.size_eq, hdrop, List.length_drop, hl.unsent.size_eq]
    have hnet : ∀ acked : Pcb → Nat, (((n.pend (.sent i chunk)).update i fun p => { p with
          splitPlan := planAfter chunk p.splitPlan, unsent := (p.unsent.read chunk).2 }).update j
        fun p => { p with
          received := p.received + chunk
          segments := p.segments + 1
          acked := acked p }).Paired i j said heard := by
      intro acked
      have hp : (n.pend (.sent i chunk)).Paired i j said heard := h.pend trivial
      refine hp.both ⟨hl.peer, hl.finSent, hl.stage.congr rfl rfl, hw, fun hsaid => ?_⟩
        ⟨h.right.peer, h.right.finSent, h.right.stage.congr rfl rfl, h.right.unsent, h.right.silent⟩ ?_ h.back
      · rw [pcb_pend, hdrop, hl.silent hsaid, List.drop_nil]
      · show (n.pcb i).written = ((n.pcb i).unsent.read chunk).2.size + ((n.pcb j).received + chunk)
        rw [hsize, h.there]
        omega
    split at hr <;> cases hr
    · exact ⟨hnet fun p => p.acked + chunk, .inl rfl⟩
    · exact ⟨hnet fun p => p.acked, .inr ⟨_, rfl⟩⟩

/-- **One of the two says goodbye**, when all its data has been sent. -/
theorem sendFin (h : n.Paired i j false heard) (hu : (n.pcb i).unsent.toList = []) (hq : (n.pcb i).finQueued = true) :
    (n.sendFin i j).net.Paired i j true heard ∧
      ((n.sendFin i j).value = (j, .nothing) ∨ (n.sendFin i j).value = (j, .event .eof)) := by
  have hl := h.left
  have hr := h.right
  have hnet : ((n.update i fun p => { p with
        finSent := true
        state := afterFinSent p.state
        owner := if afterFinSent p.state = .closed then none else p.owner }).update j
      fun p => { p with finReceived := true, state := afterFinReceived p.state }).Paired i j true heard :=
    h.both ⟨hl.peer, rfl, hl.stage.says hq, hl.unsent, fun _ => hu⟩
      ⟨hr.peer, hr.finSent, hr.stage.hears, hr.unsent, hr.silent⟩ h.there h.back
  unfold Net.sendFin
  simp only
  split
  · exact ⟨hnet, .inl rfl⟩
  · exact ⟨hnet, .inr rfl⟩

/-- One of the two sends a segment or its goodbye. -/
theorem transmit_left (h : n.Paired i j said heard) {res : Result (Nat × Delivery)} (ht : n.transmit i = some res) :
    (∃ said', res.net.Paired i j said' heard) ∧ Kept i j res.value := by
  unfold Net.transmit at ht
  rw [h.left.peer] at ht
  simp only at ht
  split at ht
  · cases ht
  · split at ht
    · obtain ⟨hnet, hv | ⟨text, hv⟩⟩ := h.sendSegment ht
      · exact ⟨⟨said, hnet⟩, hv ▸ Kept.nothing⟩
      · exact ⟨⟨said, hnet⟩, hv ▸ Kept.event⟩
    · rename_i hempty
      split at ht
      · rename_i hfin
        cases ht
        simp only [Bool.and_eq_true, Bool.not_eq_true', h.left.finSent] at hfin
        obtain ⟨hq, rfl⟩ := hfin
        have hu : (n.pcb i).unsent.toList = [] := h.left.unsent.isEmpty_iff.1 (by simpa using hempty)
        obtain ⟨hnet, hv | hv⟩ := h.sendFin hu hq
        · exact ⟨⟨true, hnet⟩, hv ▸ Kept.nothing⟩
        · exact ⟨⟨true, hnet⟩, hv ▸ Kept.event⟩
      · cases ht

/-- Another endpoint sends to a third. -/
theorem transmit_other (h : n.Paired i j said heard) (hi : m ≠ i) (hj : m ≠ j) {res : Result (Nat × Delivery)}
    (ht : n.transmit m = some res) : res.net.Paired i j said heard ∧ Kept i j res.value := by
  obtain ⟨hpi, hpj⟩ := h.apart m hi hj
  unfold Net.transmit at ht
  split at ht
  · cases ht
  · rename_i k hk
    have hki : k ≠ i := fun he => hpi (he ▸ hk)
    have hkj : k ≠ j := fun he => hpj (he ▸ hk)
    split at ht
    · cases ht
    · split at ht
      · unfold Net.sendSegment at ht
        simp only at ht
        split at ht
        · cases ht
        · generalize n.room (n.pcb m) (n.pcb k) = chunk at ht
          have h₁ : (Net.pend (n.update m fun p => { p with
              splitPlan := planAfter chunk p.splitPlan, unsent := (p.unsent.read chunk).2 })
              (.sent m chunk)).Paired i j said heard := (h.other hi hj (h.apart m hi hj)).pend trivial
          split at ht <;> cases ht
          · exact ⟨h₁.other hki hkj (h₁.apart k hki hkj), Kept.nothing⟩
          · exact ⟨h₁.other hki hkj (h₁.apart k hki hkj), Kept.event⟩
      · split at ht
        · cases ht
          unfold Net.sendFin
          have h₁ : (n.update m fun p => { p with
              finSent := true
              state := afterFinSent p.state
              owner := if afterFinSent p.state = .closed then none else p.owner }).Paired i j said heard :=
            h.other hi hj (h.apart m hi hj)
          simp only
          split
          · exact ⟨h₁.other hki hkj (h₁.apart k hki hkj), Kept.nothing⟩
          · exact ⟨h₁.other hki hkj (h₁.apart k hki hkj), Kept.event⟩
        · cases ht

/-- The oldest action that is pending. -/
theorem settle (h : n.Paired i j said heard) (ha : a.Spares i j) :
    (n.settle a).1.Paired i j said heard ∧ Kept i j (n.settle a).2 := by
  cases a with
  | connected m => exact ⟨h.other ha.1 ha.2 (h.apart m ha.1 ha.2), Kept.event⟩
  | accept => exact ⟨h, nofun⟩
  | sent => exact ⟨h, Kept.event⟩
  | reset m =>
    have h₁ := h.release ha.1 ha.2
    exact ⟨h₁.other ha.1 ha.2 (h₁.apart m ha.1 ha.2), fun _ => ha⟩

/-- **A step of the net** resets neither of the two. -/
theorem next (h : n.Paired i j said heard) {res : Result (Nat × Delivery)} (hr : n.next = some res) :
    (∃ said' heard', res.net.Paired i j said' heard') ∧ Kept i j res.value := by
  unfold Net.next at hr
  split at hr
  · rename_i a rest ha
    cases hr
    obtain ⟨hnet, hkept⟩ := (h.settled ha).settle (h.actions a (ha ▸ List.mem_cons_self))
    exact ⟨⟨said, heard, hnet⟩, hkept⟩
  · obtain ⟨m, r, cursor, ht, rfl⟩ := transmitFrom_some hr
    have turned : ∀ {said' heard'}, r.net.Paired i j said' heard' →
        { r.net with cursor }.Paired i j said' heard' := fun h => h.congr (fun _ => .refl _) h.actions
    by_cases hi : m = i
    · subst hi
      obtain ⟨⟨said', hnet⟩, hkept⟩ := h.transmit_left ht
      exact ⟨⟨said', heard, turned hnet⟩, hkept⟩
    · by_cases hj : m = j
      · subst hj
        obtain ⟨⟨heard', hnet⟩, hkept⟩ := h.symm.transmit_left ht
        exact ⟨⟨said, heard', turned hnet.symm⟩, hkept.symm⟩
      · obtain ⟨hnet, hkept⟩ := h.transmit_other hi hj ht
        exact ⟨⟨said, heard, turned hnet⟩, hkept⟩

end Paired

/-! ## How two endpoints meet -/

/-- A net in which the endpoint `j` was just made for an open of the endpoint `i`; neither has learned of it. -/
structure Met (i j l : Nat) (n : Net) : Prop where
  left : Pcb.Alike { state := .synSent, peer := some j } (n.pcb i)
  right : Pcb.Alike { state := .established, peer := some i } (n.pcb j)
  ne : i ≠ j
  apart : ∀ m, m ≠ i → m ≠ j → (n.pcb m).Apart i j
  actions : n.actions = [.connected i, .accept l j]

/-- An open that is met by a listener. -/
theorem connect_met {addr : Endpoint} {l : Nat} {res : Result Outcome} (hi : i < n.pcbs.size) (hn : n.actions = [])
    (hnew : Pcb.Alike {} (n.pcb i)) (hp : ∀ m, (n.pcb m).Apart i n.pcbs.size) (hl : n.listener? addr.port = some l)
    (hr : n.connect i addr = .ok res) : res.net.Met i n.pcbs.size l := by
  unfold Net.connect at hr
  rw [if_neg (by simp [hnew.state, hnew.peer])] at hr
  cases ha : n.ensureLocal i with
  | error => rw [ha] at hr; cases hr
  | ok r =>
    obtain ⟨source, n'⟩ := r
    obtain ⟨hlike, hsize, hactions, hlisteners⟩ := ensureLocal_ok ha
    have hl' : n'.listener? addr.port = some l := by
      unfold listener? at hl ⊢
      rw [hlisteners, hl]
    have hi' : i < n'.pcbs.size := hsize ▸ hi
    rw [ha] at hr
    dsimp only [Bind.bind, Except.bind] at hr
    rw [← hsize]
    split at hr
    · rename_i hnone
      exact absurd (hnone.symm.trans hl') nofun
    · rename_i k hk
      obtain rfl : l = k := Option.some.inj (hl'.symm.trans hk)
      cases hr
      have hne : i ≠ n'.pcbs.size := Nat.ne_of_lt hi'
      have hcaller : Pcb.Alike {} (n'.pcb i) := hnew.trans (hlike i)
      have hlt : i < (n'.pcbs.size + 1) := Nat.lt_succ_of_lt hi'
      refine ⟨?_, ?_, hne, fun m h₁ h₂ => ?_, ?_⟩
      · rw [pcb_pend, pcb_pend, pcb_update_self (by simpa [Net.add] using hlt), pcb_add, size_update, if_neg hne,
          pcb_update_self hi']
        exact ⟨congrArg some size_update, hcaller.finSent, rfl, hcaller.finQueued, hcaller.unsent, hcaller.written,
          hcaller.received⟩
      · rw [pcb_pend, pcb_pend, pcb_update_of_ne hne.symm, pcb_add, size_update, if_pos rfl]
        exact ⟨rfl, rfl, rfl, rfl, rfl, rfl, rfl⟩
      · rw [pcb_pend, pcb_pend, pcb_update_of_ne h₁, pcb_add, size_update, if_neg h₂, pcb_update_of_ne h₁]
        unfold Pcb.Apart
        rw [(hlike m).peer, hsize]
        exact hp m
      · simp [Net.add, hactions, hn]

/-- **An open that is met by a listener joins two endpoints**: the steps that tell of it leave a net in which they part
in peace. -/
theorem Met.next {l : Nat} (h : n.Met i j l) :
    ∃ n₁ n₂, n.next = some ⟨n₁, [], (i, .event (.connected (.ok ())))⟩ ∧
      n₁.next = some ⟨n₂, [], (l, .accept j)⟩ ∧ n₂.Paired i j false false := by
  have hi : i < n.pcbs.size := lt_size_of_peer h.left.peer
  refine ⟨{ n with actions := [.accept l j] }.update i fun p => { p with state := .established },
    { n with actions := [] }.update i fun p => { p with state := .established }, ?_, rfl, ?_⟩
  · unfold Net.next
    rw [h.actions]
    rfl
  · have hself := pcb_update_self (n := { n with actions := [] }) (f := fun p => { p with state := .established }) hi
    have hother : ∀ {m}, m ≠ i → ({ n with actions := [] }.update i fun p => { p with state := .established }).pcb m =
        n.pcb m := pcb_update_of_ne
    refine ⟨?_, ?_, h.ne, fun m h₁ h₂ => ?_, nofun, ?_, ?_⟩
    · rw [hself]
      exact ⟨h.left.peer, h.left.finSent, .talking rfl h.left.finQueued, h.left.unsent ▸ Segments.wellFormed_default, nofun⟩
    · rw [hother h.ne.symm]
      exact ⟨h.right.peer, h.right.finSent, .talking h.right.state h.right.finQueued,
        h.right.unsent ▸ Segments.wellFormed_default, nofun⟩
    · rw [hother h₁]
      exact h.apart m h₁ h₂
    · rw [hself, hother h.ne.symm]
      show (n.pcb i).written = (n.pcb i).unsent.size + (n.pcb j).received
      rw [h.left.written, h.left.unsent, h.right.received]
      rfl
    · rw [hself, hother h.ne.symm]
      show (n.pcb j).written = (n.pcb j).unsent.size + (n.pcb i).received
      rw [h.right.written, h.right.unsent, h.left.received]
      rfl

namespace Paired

/-! ## Runs -/

/-- A change by whom an endpoint belongs to. -/
theorem updateOwned (h : n.Paired i j said heard) (id : Handle) (hf : ∀ p : Pcb, p.Alike (f p)) :
    (n.updateOwned id f).1.Paired i j said heard := by
  unfold Net.updateOwned
  split
  · exact h.alike (hf _)
  · exact h

theorem tick (h : n.Paired i j said heard) : n.tick.1.Paired i j said heard := by
  refine h.congr (fun m => ?_) h.actions
  rw [pcb_tick]
  obtain ⟨k, hk⟩ := Pcb.beat_fst (n.pcb m)
  rw [hk]
  exact ⟨rfl, rfl, rfl, rfl, rfl, rfl, rfl⟩

end Paired

end Net

/-- What may happen to a net. -/
inductive Deal
  | perform (m : Nat) (o : PcbOp)
  /-- A new endpoint. -/
  | add
  | next
  | tick
  | split (id : Handle) (sizes : List Nat)
  | failCloses (id : Handle) (count : Nat)
  /-- Data has arrived for nobody. -/
  | acknowledge (m len : Nat)

/-- The net afterwards, and what was brought to whom. What cannot be done changes nothing. -/
def Deal.make (n : Net) : Deal → Net × Option (Nat × Delivery)
  | .perform m o =>
    match n.perform m o with
    | .ok r => (r.net, none)
    | .error _ => (n, none)
  | .add => ((n.add {}).2, none)
  | .next =>
    match n.next with
    | some r => (r.net, some r.value)
    | none => (n, none)
  | .tick => (n.tick.1, none)
  | .split id sizes => ((n.split id sizes).1, none)
  | .failCloses id count => ((n.failCloses id count).1, none)
  | .acknowledge m len => (n.acknowledge m len, none)

/-- Whether this may happen to a net in which the endpoints `i` and `j` part in peace. -/
def Deal.Peaceful (i j : Nat) (n : Net) : Deal → Prop
  | .perform m o => n.Permits i j m o
  | _ => True

/-- The net after all of this, and what was brought to whom. -/
def Net.deals (n : Net) : List Deal → Net × List (Nat × Delivery)
  | [] => (n, [])
  | d :: ds => (((d.make n).1.deals ds).1, (d.make n).2.toList ++ ((d.make n).1.deals ds).2)

/-- Whether all of this may happen, one after the other. -/
def Net.Peace (i j : Nat) (n : Net) : List Deal → Prop
  | [] => True
  | d :: ds => d.Peaceful i j n ∧ (d.make n).1.Peace i j ds

instance (i j : Nat) (n : Net) (m : Nat) (o : PcbOp) : Decidable (n.Permits i j m o) :=
  inferInstanceAs (Decidable (_ → _))

instance (i j : Nat) (n : Net) (d : Deal) : Decidable (d.Peaceful i j n) :=
  match d with
  | .perform m o => inferInstanceAs (Decidable (n.Permits i j m o))
  | .add | .next | .tick | .split _ _ | .failCloses _ _ | .acknowledge _ _ => isTrue trivial

instance Net.decidablePeace (i j : Nat) : (n : Net) → (ds : List Deal) → Decidable (n.Peace i j ds)
  | _, [] => isTrue trivial
  | n, d :: ds =>
    have := decidablePeace i j (d.make n).1 ds
    inferInstanceAs (Decidable (d.Peaceful i j n ∧ (d.make n).1.Peace i j ds))

namespace Net

/-- What happens once. -/
theorem Paired.make (h : n.Paired i j said heard) {d : Deal} (hd : d.Peaceful i j n) :
    (∃ said' heard', (d.make n).1.Paired i j said' heard') ∧ ∀ brought ∈ (d.make n).2, Kept i j brought := by
  cases d with
  | perform m o =>
    unfold Deal.make
    simp only
    split
    · rename_i r hr
      exact ⟨⟨said, heard, h.perform hd hr⟩, nofun⟩
    · exact ⟨⟨said, heard, h⟩, nofun⟩
  | add => exact ⟨⟨said, heard, h.add ⟨nofun, nofun⟩⟩, nofun⟩
  | next =>
    unfold Deal.make
    simp only
    split
    · rename_i r hr
      obtain ⟨hnet, hkept⟩ := h.next hr
      exact ⟨hnet, fun brought hb => Option.some.inj hb ▸ hkept⟩
    · exact ⟨⟨said, heard, h⟩, nofun⟩
  | tick => exact ⟨⟨said, heard, h.tick⟩, nofun⟩
  | split id sizes => exact ⟨⟨said, heard, h.updateOwned id fun _ => ⟨rfl, rfl, rfl, rfl, rfl, rfl, rfl⟩⟩, nofun⟩
  | failCloses id count => exact ⟨⟨said, heard, h.updateOwned id fun _ => ⟨rfl, rfl, rfl, rfl, rfl, rfl, rfl⟩⟩, nofun⟩
  | acknowledge m len => exact ⟨⟨said, heard, h.alike ⟨rfl, rfl, rfl, rfl, rfl, rfl, rfl⟩⟩, nofun⟩

/-- **Two endpoints that part in peace are never reset.** Whatever else happens to the net, as long as neither of the two
is aborted, made part of another connection, or closed once it has come to its end: no step resets one of them, and what
was written at either is not sent yet or was received at the other. -/
theorem Paired.deals (h : n.Paired i j said heard) {ds : List Deal} (hp : n.Peace i j ds) :
    (∃ said' heard', (n.deals ds).1.Paired i j said' heard') ∧ ∀ brought ∈ (n.deals ds).2, Kept i j brought := by
  induction ds generalizing n said heard with
  | nil => exact ⟨⟨said, heard, h⟩, nofun⟩
  | cons d ds ih =>
    obtain ⟨⟨said', heard', hnet⟩, hkept⟩ := h.make hp.1
    obtain ⟨hlast, hrest⟩ := ih hnet hp.2
    refine ⟨hlast, fun brought hb => ?_⟩
    rcases List.mem_append.1 hb with hb | hb
    · exact hkept brought (Option.mem_toList.1 hb)
    · exact hrest brought hb

/-- Where somebody listens. -/
def doorway : Endpoint := { ip := .loopback, port := 80 }

/-- A net in which the endpoint 1 has met the endpoint 2 at a door that the endpoint 0 keeps. -/
def meeting : Net :=
  (({} : Net).deals [.add, .perform 0 (.bind doorway), .perform 0 (.listen 1), .add, .perform 1 (.connect doorway), .next,
    .next]).1

theorem meeting_paired : meeting.Paired 1 2 false false := by
  have hwell : (meeting.pcb 1).unsent.WellFormed ∧ (meeting.pcb 2).unsent.WellFormed :=
    ⟨Segments.wellFormed_default, Segments.wellFormed_default⟩
  refine ⟨⟨rfl, rfl, .talking rfl rfl, hwell.1, nofun⟩, ⟨rfl, rfl, .talking rfl rfl, hwell.2, nofun⟩, by decide,
    fun m h₁ h₂ => ?_, fun a ha => ?_, rfl, rfl⟩
  · rcases Nat.lt_or_ge m 3 with hm | hm
    · obtain rfl : m = 0 := by omega
      exact ⟨nofun, nofun⟩
    · rw [pcb_of_size_le (n := meeting) (by exact hm)]
      exact ⟨nofun, nofun⟩
  · exact nomatch (show a ∈ ([] : List Action) from ha)

/-- Both close while data is on its way. -/
theorem Paired.deals_letter :
    (∃ said heard, (meeting.deals [.perform 1 (.write [104, 105] ⟨0⟩), .perform 1 .close, .perform 2 (.shutdown .write),
      .next, .next, .next, .perform 1 .close, .perform 2 (.recved 2)]).1.Paired 1 2 said heard) ∧
      ∀ brought ∈ (meeting.deals [.perform 1 (.write [104, 105] ⟨0⟩), .perform 1 .close, .perform 2 (.shutdown .write),
        .next, .next, .next, .perform 1 .close, .perform 2 (.recved 2)]).2, Kept 1 2 brought :=
  meeting_paired.deals (by decide +kernel)

/-- **A close that comes too late.** Both have shut down their write halves and said goodbye. The endpoint 2 is at its end,
and closing it resets its peer. -/
theorem late_close_resets :
    (meeting.deals [.perform 1 (.shutdown .write), .next, .perform 2 (.shutdown .write), .next,
      .perform 2 .close, .next]).2.getLast? = some (1, .reset) := rfl

end Net

end Conduit.Loopback
