import Conduit.Proofs.Loopback.Bounds

/-!
# Edits of a net

What an operation may do with its endpoint, and what becomes of the endpoints that are joined: they stay so, and belong to
nobody when they are closed.

* `Net.Edit`: all that an operation may do, one thing at a time. `Net.perform_edits`: an operation does nothing else.
* `Pcb.LetGo`: an endpoint that was joined and is closed belongs to nobody.
* `Net.undergo_goes`: **whatever happens, an endpoint that is joined stays so, and is let go when it is closed.**
-/

namespace Conduit.Loopback

/-- An endpoint that was joined to another, and is closed. -/
def Pcb.Ended (p : Pcb) : Prop := p.state = .closed ∧ p.peer.isSome = true

/-- It belongs to nobody then. -/
def Pcb.LetGo (p : Pcb) : Prop := p.Ended → p.owner = none

/-- An endpoint that is joined stays so, and is let go when it is closed. -/
structure Pcb.Goes (p q : Pcb) : Prop where
  peer : p.peer.isSome = true → q.peer = p.peer
  letGo : p.LetGo → q.LetGo

/-- An endpoint at its end. -/
def Pcb.released (p : Pcb) : Pcb := { p with state := .closed, owner := none, unsent := .empty, splitPlan := [] }

variable {p q r : Pcb}

theorem Pcb.letGo_of_open (h : p.state ≠ .closed) : p.LetGo := fun he => absurd he.1 h

theorem Pcb.Goes.of_eq (hs : q.state = p.state) (hp : q.peer = p.peer) (ho : q.owner = p.owner) : p.Goes q := by
  refine ⟨fun _ => hp, fun h he => ho.trans (h ⟨hs ▸ he.1, hp ▸ he.2⟩)⟩

theorem Pcb.Goes.refl (p : Pcb) : p.Goes p := .of_eq rfl rfl rfl

theorem Pcb.Goes.trans (h : p.Goes q) (h' : q.Goes r) : p.Goes r := by
  refine ⟨fun hp => ?_, fun hl => h'.letGo (h.letGo hl)⟩
  have hq := h.peer hp
  exact (h'.peer (hq ▸ hp)).trans hq

theorem Pcb.Goes.of_open (hp : q.peer = p.peer) (hs : q.state ≠ .closed) : p.Goes q :=
  ⟨fun _ => hp, fun _ => letGo_of_open hs⟩

theorem Pcb.Goes.of_unowned (hp : q.peer = p.peer) (ho : q.owner = none) : p.Goes q := ⟨fun _ => hp, fun _ _ => ho⟩

namespace Net

variable {n n' n'' : Net} {i m : Nat} {a : Action} {x : Happening}

/-! ## Operations -/

/-- One thing that an operation does with its endpoint `m`. -/
inductive Edit (m : Nat) (n : Net) : Net → Prop
  /-- What has nothing to do with the connection. -/
  | minor (f : Pcb → Pcb) (hf : ∀ p, (f p).state = p.state ∧ (f p).peer = p.peer ∧ (f p).owner = p.owner) :
      Edit m n (n.update m f)
  | ports (listeners : List (Nat × Nat)) (nextPort : Nat) : Edit m n { n with listeners, nextPort }
  | opens (f : Pcb → Pcb) (hf : ∀ p, (f p).state ≠ .closed ∧ (f p).peer = p.peer) : Edit m n (n.update m f)
  | ends : Edit m n (n.release m)
  | resets (k : Nat) : Edit m n (n.pend (.reset k))
  | attaches (id : Handle) : Edit m n (n.attach m id)
  | detaches : Edit m n (n.update m fun p => { p with owner := none })
  /-- An endpoint that was not joined is joined to a new one. -/
  | joins (p : Pcb) (hp : p.state ≠ .closed) (hm : (n.pcb m).peer = none)
      (hs : m < n.pcbs.size → (n.pcb m).state ≠ .closed) (listener : Nat) :
      Edit m n ((((n.add p).2.update m fun q => { q with peer := some n.pcbs.size }).pend (.connected m)).pend
        (.accept listener n.pcbs.size))

/-- Any number of such things. -/
inductive Edits (m : Nat) : Net → Net → Prop
  | refl (n : Net) : Edits m n n
  | step {n n₁ n' : Net} (h : Edit m n n₁) (hs : Edits m n₁ n') : Edits m n n'

theorem Edit.edits (h : n.Edit m n') : Edits m n n' := .step h (.refl n')

theorem Edits.trans (h : Edits m n n') (h' : Edits m n' n'') : Edits m n n'' := by
  induction h with
  | refl => exact h'
  | step h _ ih => exact .step h (ih h')

theorem edits_abort (n : Net) (m : Nat) : Edits m n (n.abort m) := by
  have hends : ∀ n : Net, Edits m n (n.release m) := fun n => Edit.ends.edits
  unfold abort resetPeer
  split
  · split
    · exact .step (.resets _) (hends _)
    · exact hends n
  · exact hends n

theorem allocPort_edits {port : Nat} (h : n.allocPort = .ok (port, n')) : Edits m n n' := by
  obtain ⟨k, rfl⟩ := allocPort_ok h
  exact (Edit.ports n.listeners k).edits

theorem edits_minor (f : Pcb → Pcb) (hf : ∀ p, (f p).state = p.state ∧ (f p).peer = p.peer ∧ (f p).owner = p.owner) :
    Edits m n (n.update m f) := (Edit.minor f hf).edits

theorem ensureLocal_edits {addr : Endpoint} (h : n.ensureLocal m = .ok (addr, n')) : Edits m n n' := by
  unfold ensureLocal at h
  split at h
  · cases h
    exact .refl n
  · cases ha : n.allocPort with
    | error => rw [ha] at h; cases h
    | ok r =>
      rw [ha] at h
      cases h
      exact (allocPort_edits ha).trans (edits_minor _ fun _ => ⟨rfl, rfl, rfl⟩)

theorem bind_edits {addr : Endpoint} {res : Result Outcome} (h : n.bind m addr = .ok res) : Edits m n res.net := by
  unfold bind at h
  split at h
  · cases ha : n.allocPort with
    | error => rw [ha] at h; cases h
    | ok r =>
      rw [ha] at h
      cases h
      exact (allocPort_edits ha).trans (edits_minor _ fun _ => ⟨rfl, rfl, rfl⟩)
  · split at h <;> cases h
    · exact .refl n
    · exact edits_minor _ fun _ => ⟨rfl, rfl, rfl⟩

theorem listen_edits {res : Result Outcome} (h : n.listen m = .ok res) : Edits m n res.net := by
  unfold listen at h
  cases hl : n.ensureLocal m with
  | error => rw [hl] at h; cases h
  | ok r =>
    have h₁ := ensureLocal_edits hl
    rw [hl] at h
    change (if _ then _ else _) = _ at h
    split at h <;> cases h
    · exact h₁
    · refine h₁.trans (.step (.ports ((r.1.port, m) :: r.2.listeners) r.2.nextPort) (Edit.edits (.opens _ fun p => ?_)))
      exact ⟨by simp, rfl⟩

theorem connect_edits {addr : Endpoint} {res : Result Outcome} (h : n.connect m addr = .ok res) : Edits m n res.net := by
  unfold connect at h
  split at h
  · cases h
    exact .refl n
  · rename_i hfree
    obtain ⟨-, hpeer⟩ : (n.pcb m).state = .closed ∧ (n.pcb m).peer = none := by simpa using hfree
    cases hl : n.ensureLocal m with
    | error => rw [hl] at h; cases h
    | ok r =>
      obtain ⟨halike, hsize, -, -⟩ := ensureLocal_ok hl
      rw [hl] at h
      dsimp only [Bind.bind, Except.bind] at h
      have hopens : Edit m r.2 (r.2.update m fun p => { p with remoteAddr := some addr, state := .synSent }) :=
        .opens _ fun p => ⟨by simp, rfl⟩
      have h₁ := (ensureLocal_edits hl).trans hopens.edits
      have hpeer₁ : ((r.2.update m fun p => { p with remoteAddr := some addr, state := .synSent }).pcb m).peer = none := by
        have hsame : (r.2.pcb m).peer = none := (halike m).peer.trans hpeer
        exact pcb_update_elim (P := fun p => p.peer = none) hsame fun _ => hsame
      split at h <;> cases h
      · exact h₁.trans (Edit.resets m).edits
      · refine h₁.trans (Edit.edits (.joins _ (by simp) hpeer₁ (fun hm => ?_) _))
        rw [pcb_update_self (by simpa using hm)]
        simp

theorem close_edits (n : Net) (m : Nat) : Edits m n (n.close m).1 := by
  unfold close
  simp only
  split
  · exact edits_minor _ fun _ => ⟨rfl, rfl, rfl⟩
  · have h₁ : Edits m n (n.update m fun p => { p with rxClosed := true }) := edits_minor _ fun _ => ⟨rfl, rfl, rfl⟩
    cases (n.pcb m).state with
    | established | synReceived | closeWait =>
      refine h₁.trans (Edit.edits (.opens _ fun p => ?_))
      exact ⟨by simp, rfl⟩
    | finWait1 | finWait2 | closing | lastAck | timeWait => exact h₁
    | closed | listen | synSent => exact h₁.trans (edits_abort _ m)

theorem shutdown_edits (n : Net) (m : Nat) (dir : Direction) : Edits m n (n.shutdown m dir).1 := by
  have h₁ : Edits m n (if dir = .write then n else n.update m fun p => { p with rxClosed := true }) := by
    split
    · exact .refl n
    · exact edits_minor _ fun _ => ⟨rfl, rfl, rfl⟩
  unfold shutdown
  simp only
  generalize (if dir = .write then n else n.update m fun p => { p with rxClosed := true }) = n₁ at h₁
  split
  · exact h₁
  · split
    · refine h₁.trans (Edit.edits (.opens _ fun p => ?_))
      exact ⟨by simp, rfl⟩
    · refine h₁.trans (Edit.edits (.opens _ fun p => ?_))
      exact ⟨by simp, rfl⟩
    · exact h₁

theorem write_edits (n : Net) (m : Nat) (data : Bytes) : Edits m n (n.write m data).1 := by
  unfold write
  simp only
  split
  · exact .refl n
  · split
    · exact .refl n
    · split
      · exact .refl n
      · exact edits_minor _ fun _ => ⟨rfl, rfl, rfl⟩

/-- **An operation does nothing else.** -/
theorem perform_edits {o : PcbOp} {res : Result o.Reply} (h : n.perform m o = .ok res) : Edits m n res.net := by
  cases o with
  | bind => exact bind_edits h
  | connect => exact connect_edits h
  | listen => exact listen_edits h
  | write data =>
    cases h
    exact write_edits n m data
  | output | mss | sndbuf | sndqueuelen | nagleDisabled | localAddr | remoteAddr | state =>
    cases h
    exact .refl n
  | recved k =>
    change (n.recved m k).map _ = _ at h
    unfold recved at h
    split at h
    · cases h
    · cases h
      exact edits_minor _ fun _ => ⟨rfl, rfl, rfl⟩
  | close =>
    cases h
    exact close_edits n m
  | shutdown dir =>
    cases h
    exact shutdown_edits n m dir
  | abort =>
    cases h
    exact edits_abort n m
  | setNagle | setPrio | setPollInterval =>
    cases h
    exact edits_minor _ fun _ => ⟨rfl, rfl, rfl⟩
  | attach id =>
    cases h
    exact (Edit.attaches id).edits
  | detach =>
    cases h
    exact Edit.detaches.edits

theorem release_eq (n : Net) (m : Nat) :
    ∃ ls, n.release m = ({ n with listeners := ls } : Net).update m Pcb.released := by
  unfold release
  simp only
  split
  · rename_i a ha
    split
    · exact ⟨n.listeners.filter fun l => l.1 ≠ a.port, rfl⟩
    · exact ⟨n.listeners, rfl⟩
  · exact ⟨n.listeners, rfl⟩

/-! ## What becomes of all endpoints -/

/-- All endpoints that are joined stay so, and are let go when they are closed. -/
def Goes (n n' : Net) : Prop := ∀ i, (n.pcb i).Goes (n'.pcb i)

theorem Goes.refl (n : Net) : n.Goes n := fun _ => .refl _

theorem Goes.trans (h : n.Goes n') (h' : n'.Goes n'') : n.Goes n'' := fun i => (h i).trans (h' i)

theorem goes_update {f : Pcb → Pcb} (hf : (n.pcb m).Goes (f (n.pcb m))) : n.Goes (n.update m f) := fun i =>
  pcb_update_elim (.refl _) fun hi => by
    subst hi
    exact hf

theorem goes_release (n : Net) (m : Nat) : n.Goes (n.release m) := by
  obtain ⟨ls, hr⟩ := n.release_eq m
  rw [hr]
  exact goes_update (n := { n with listeners := ls }) (.of_unowned rfl rfl)

theorem Edit.goes (h : n.Edit m n') : n.Goes n' := by
  cases h with
  | minor f hf => exact goes_update (.of_eq (hf _).1 (hf _).2.1 (hf _).2.2)
  | ports | resets => exact .refl n
  | opens f hf => exact goes_update (.of_open (hf _).2 (hf _).1)
  | ends => exact goes_release n m
  | attaches id =>
    refine goes_update ?_
    split
    · rename_i hopen
      refine ⟨fun _ => rfl, fun _ he => ?_⟩
      obtain ⟨hs, hp⟩ : (n.pcb m).state = .closed ∧ (n.pcb m).peer.isSome = true := he
      simp [hs, Option.isNone_iff_eq_none, Option.isSome_iff_ne_none.1 hp] at hopen
    · exact .refl _
  | detaches => exact goes_update (.of_unowned rfl rfl)
  | joins p hp hm hs listener =>
    intro i
    show (n.pcb i).Goes (((n.add p).2.update m fun q => { q with peer := some n.pcbs.size }).pcb i)
    rcases Nat.lt_or_ge i n.pcbs.size with hi | hi
    · have hold : (n.add p).2.pcb i = n.pcb i := by
        rw [pcb_add, if_neg (Nat.ne_of_lt hi)]
      by_cases him : i = m
      · subst him
        have hsize : i < (n.add p).2.pcbs.size := by
          simp only [add, Array.size_push]
          omega
        rw [pcb_update_self hsize, hold]
        refine ⟨fun hpeer => ?_, fun _ => Pcb.letGo_of_open (hs hi)⟩
        rw [hm] at hpeer
        cases hpeer
      · rw [pcb_update_of_ne him, hold]
        exact .refl _
    · -- the new endpoint is open, and after it there is none
      rw [pcb_of_size_le hi]
      refine ⟨(fun hpeer => by cases hpeer), fun _ => pcb_update_elim ?_ fun _ => ?_⟩
      all_goals
        rw [pcb_add]
        split
        · exact Pcb.letGo_of_open hp
        · rw [pcb_of_size_le hi]
          exact fun _ => rfl

theorem Edits.goes (h : Edits m n n') : n.Goes n' := by
  induction h with
  | refl => exact .refl _
  | step h _ ih => exact h.goes.trans ih

/-- A segment that is sent is on its way, and brings its receiver nothing but data. -/
theorem sendSegment_posts {k : Nat} {res : Result (Nat × Delivery)} (h : n.sendSegment i k = some res) :
    ∃ len unread, res.net = n.post i k len unread ∧
      (res.value = (k, .nothing) ∨ ∃ data, res.value = (k, .event (.recv data))) := by
  unfold sendSegment at h
  dsimp only at h
  generalize n.room (n.pcb i) (n.pcb k) = len at h
  split at h
  · cases h
  · split at h
    · cases h
      exact ⟨len, true, rfl, .inl rfl⟩
    · cases h
      exact ⟨len, false, rfl, .inr ⟨_, rfl⟩⟩

/-- It changes no state, no peer and no owner. -/
theorem post_goes (n : Net) (i k len : Nat) (unread : Bool) : n.Goes (n.post i k len unread) := by
  have hsent : n.Goes (n.depart i len) := goes_update (.of_eq rfl rfl rfl)
  have hpending : n.Goes ((n.depart i len).pend (.sent i len)) := hsent
  exact hpending.trans (goes_update (.of_eq rfl rfl rfl))

theorem afterFinReceived_ne_closed {s : TcpState} (h : s ≠ .closed) : afterFinReceived s ≠ .closed := by
  cases s <;> simp_all [afterFinReceived]

/-- Whoever is closed by its own goodbye is let go. -/
theorem sendFin_goes (n : Net) (i k : Nat) : n.Goes (n.sendFin i k).net := by
  have hspoken : n.Goes (n.update i fun p => { p with
      finSent := true
      state := afterFinSent p.state
      owner := if afterFinSent p.state = .closed then none else p.owner }) := by
    refine goes_update ?_
    by_cases hs : afterFinSent (n.pcb i).state = .closed
    · exact .of_unowned rfl (if_pos hs)
    · exact .of_open rfl hs
  have hhears : ∀ n₁ : Net, n₁.Goes (n₁.update k fun p => { p with
      finReceived := true, state := afterFinReceived p.state }) := by
    intro n₁
    refine goes_update ?_
    by_cases hs : (n₁.pcb k).state = .closed
    · exact .of_eq ((congrArg afterFinReceived hs).trans hs.symm) rfl rfl
    · exact .of_open rfl (afterFinReceived_ne_closed hs)
  have hboth := hspoken.trans (hhears _)
  unfold sendFin
  dsimp only
  split <;> exact hboth

/-- An action is settled, and what it brings is heeded: whoever is reset is let go. -/
theorem settle_goes (n : Net) (a : Action) : n.Goes ((n.settle a).1.heed (n.settle a).2.1 (n.settle a).2.2) := by
  cases a with
  | connected i => exact goes_update (.of_open rfl (by simp))
  | sent i len => exact .refl n
  | accept listener new =>
    change n.Goes (if _ then n.abort new else n)
    split
    · exact (edits_abort n new).goes
    · exact .refl n
  | reset i =>
    obtain ⟨ls, hr⟩ := n.release_eq i
    have hends : ∀ x, (x = none ∨ (n.pcb i).state = .closed ∧ x = (n.pcb i).owner) →
        n.Goes (({ n with listeners := ls } : Net).update i fun p => { p.released with owner := x }) := by
      intro x hx
      refine goes_update (n := { n with listeners := ls }) ?_
      rcases hx with rfl | ⟨hs, rfl⟩
      · exact .of_unowned rfl rfl
      · exact .of_eq hs.symm rfl rfl
    have howned : ∀ x, (n.release i).update i (fun q => { q with owner := x }) =
        ({ n with listeners := ls } : Net).update i fun p => { p.released with owner := x } := by
      intro x
      rw [hr]
      exact update_update fun _ => rfl
    simp only [settle]
    split
    · have hunowned : ((n.release i).update i fun q => { q with owner := (n.pcb i).owner }).update i
          (fun q => { q with owner := none }) = (n.release i).update i fun q => { q with owner := none } :=
        update_update fun _ => rfl
      show n.Goes (((n.release i).update i _).update i _)
      rw [hunowned, howned]
      exact hends none (.inl rfl)
    · rename_i hclosed
      show n.Goes ((n.release i).update i _)
      rw [howned]
      exact hends _ (.inr ⟨Decidable.not_not.1 hclosed, rfl⟩)

/-- What a segment brings is heeded. -/
theorem heed_recv_goes (n : Net) (k : Nat) (data : Bytes) : n.Goes (n.heed k (.event (.recv data))) := by
  change n.Goes (if _ then n.acknowledge k data.length else n)
  split
  · exact goes_update (.of_eq rfl rfl rfl)
  · exact .refl n

theorem goes_tick (n : Net) : n.Goes n.tick.1 := fun i => by
  rw [pcb_tick]
  obtain ⟨k, hk⟩ := Pcb.beat_fst (n.pcb i)
  rw [hk]
  exact .of_eq rfl rfl rfl

theorem goes_updateOwned (n : Net) (id : Handle) {f : Pcb → Pcb}
    (hf : ∀ p, (f p).state = p.state ∧ (f p).peer = p.peer ∧ (f p).owner = p.owner) : n.Goes (n.updateOwned id f).1 := by
  unfold updateOwned
  split
  · exact goes_update (.of_eq (hf _).1 (hf _).2.1 (hf _).2.2)
  · exact .refl n

/-- **Whatever happens to a net.** -/
theorem undergo_goes (h : n.undergo x = .ok n') : n.Goes n' := by
  cases x with
  | add =>
    cases h
    intro i
    rw [pcb_add]
    split
    · rename_i hi
      rw [pcb_of_size_le (Nat.le_of_eq hi.symm)]
      exact .refl _
    · exact .refl _
  | perform m o =>
    obtain ⟨res, hp, rfl⟩ := undergo_perform.1 h
    exact (perform_edits hp).goes
  | step =>
    unfold undergo at h
    dsimp only at h
    split at h
    · cases h
      exact .refl n
    · rename_i res hres
      cases h
      cases next_stepped hres with
      | @settles a rest ha => exact settle_goes { n with actions := rest } a
      | @segment i k res hn hp hs cursor =>
        obtain ⟨len, unread, hnet, hvalue⟩ := sendSegment_posts hs
        have hsent : n.Goes { res.net with cursor } := by
          rw [hnet]
          exact post_goes n i k len unread
        rcases hvalue with hv | ⟨data, hv⟩
        · rw [hv]
          exact hsent
        · rw [hv]
          exact hsent.trans (heed_recv_goes _ k data)
      | @goodbye i k hn hp cursor =>
        have hsaid : n.Goes { (n.sendFin i k).net with cursor } := sendFin_goes n i k
        rcases sendFin_value n i k with hv | hv
        · rw [hv]
          exact hsaid
        · rw [hv]
          exact hsaid
  | tick =>
    cases h
    exact goes_tick n
  | split id sizes =>
    cases h
    exact goes_updateOwned n id fun _ => ⟨rfl, rfl, rfl⟩
  | failCloses id count =>
    cases h
    exact goes_updateOwned n id fun _ => ⟨rfl, rfl, rfl⟩

end Net

end Conduit.Loopback
