import Conduit.Proofs.Loopback.Wired
import Conduit.Proofs.Segments

/-!
# What one endpoint sends to another

A net in which two endpoints are joined, of which the one at `j` keeps reading and never says goodbye. What was written
at `i` has been brought to `j`, or is not sent yet; goodbye is said when all has been brought.

* `Net.Streams`: such a net.
* `Streams.perform_sender`, `Streams.perform_receiver`: what an operation of either endpoint does to it.
* `Streams.next_cases`: all that a step can bring.
* `Streams.stuck`: when there is no step, all has been brought, unless the receiver owes acknowledgements.
-/

namespace Conduit

/-- Whether an endpoint that was asked to do this is still joined to its peer. -/
def PcbOp.isCalm : PcbOp → Bool
  | .bind _ | .connect _ | .listen _ | .abort => false
  | _ => true

/-- Whether an endpoint that was asked to do this still belongs to the same connection, and its halves are as before. -/
def PcbOp.isMild : PcbOp → Bool
  | .bind _ | .connect _ | .listen _ | .abort | .close | .shutdown _ | .attach _ | .detach => false
  | _ => true

namespace Loopback

/-- An endpoint that plays no part: it has nothing to send, and nobody hears of its poll timer. -/
structure Pcb.AtRest (p : Pcb) : Prop where
  silent : p.Silent
  unpolled : p.pollInterval = 0 ∨ p.owner = none

/-- How far an endpoint has closed its write half: it is open, it has still to say goodbye, or it has done so. -/
inductive Pcb.Parts (p : Pcb) : Bool → Prop
  | open (hs : p.state = .established) (hq : p.finQueued = false) (hf : p.finSent = false) : Parts p false
  | closing (hs : p.state = .finWait1) (hq : p.finQueued = true) (hf : p.finSent = false) : Parts p false
  | parted (hs : p.state = .finWait2) (hq : p.finQueued = true) (hf : p.finSent = true) (hu : p.unsent.toList = []) :
      Parts p true

/-- An endpoint that is joined to the endpoint `j`, belongs to `x` or to nobody, and sends; the flag says whether it has
said goodbye. -/
structure Pcb.Speaks (j : Nat) (x : Handle) (fin : Bool) (p : Pcb) : Prop where
  owner : p.owner = none ∨ p.owner = some x
  peer : p.peer = some j
  unsent : p.unsent.WellFormed
  plan : ∀ k ∈ p.splitPlan, 0 < k
  parts : p.Parts fin

/-- An endpoint that is joined to the endpoint `i`, belongs to `y`, and reads; the flag says whether goodbye was said to
it. -/
structure Pcb.Listens (i : Nat) (y : Handle) (fin : Bool) (p : Pcb) : Prop where
  owner : p.owner = some y
  peer : p.peer = some i
  state : p.state = if fin then .closeWait else .established
  finQueued : p.finQueued = false
  reads : p.rxClosed = false
  plan : ∀ k ∈ p.splitPlan, 0 < k
  acked : p.acked ≤ p.received

/-- Of what was `said` at the endpoint `i`, so much was `brought` to the endpoint `j`; the flag says whether goodbye was.
Before that the endpoint `j` had received `r` bytes. -/
structure Net.Streams (i j : Nat) (x y : Handle) (r : Nat) (said brought : Bytes) (fin : Bool) (n : Net) : Prop where
  sender : (n.pcb i).Speaks j x fin
  receiver : (n.pcb j).Listens i y fin
  ne : i ≠ j
  rest : ∀ m, m ≠ i → m ≠ j → (n.pcb m).AtRest
  actions : ∀ a ∈ n.actions, ∃ len, a = .sent i len ∨ a = .sent j len
  options : n.options.invalid? = none
  said_eq : said = brought ++ (n.pcb i).unsent.toList
  written : (n.pcb i).written = (n.pcb i).unsent.size + (n.pcb j).received
  received : (n.pcb j).received = r + brought.length

variable {n n' : Net} {i j r : Nat} {x y : Handle} {said brought text : Bytes} {fin : Bool} {p q : Pcb}

theorem Pcb.Parts.congr (h : p.Parts fin) (hs : q.state = p.state) (hq : q.finQueued = p.finQueued)
    (hf : q.finSent = p.finSent) (hu : q.unsent = p.unsent) : q.Parts fin := by
  cases h with
  | «open» hs' hq' hf' => exact .open (hs.trans hs') (hq.trans hq') (hf.trans hf')
  | closing hs' hq' hf' => exact .closing (hs.trans hs') (hq.trans hq') (hf.trans hf')
  | parted hs' hq' hf' hu' => exact .parted (hs.trans hs') (hq.trans hq') (hf.trans hf') (hu ▸ hu')

theorem Pcb.atRest_default : ({} : Pcb).AtRest := ⟨.inl rfl, .inl rfl⟩

/-- An open sender is going to say goodbye. -/
theorem Pcb.Speaks.shut (h : p.Speaks j x fin) (hs : p.state = .established) :
    ({ p with finQueued := true, state := .finWait1 } : Pcb).Speaks j x fin := by
  refine ⟨h.owner, h.peer, h.unsent, h.plan, ?_⟩
  cases h.parts with
  | «open» _ _ hf => exact .closing rfl rfl hf
  | closing hs' => simp [hs] at hs'
  | parted hs' => simp [hs] at hs'

theorem Pcb.Speaks.state_ne (h : p.Speaks j x fin) : p.state ≠ .closed := by
  cases h.parts with
  | «open» hs => simp [hs]
  | closing hs => simp [hs]
  | parted hs => simp [hs]

theorem Pcb.Listens.joins (h : p.Listens i y fin) : p.Joins i y := by
  refine ⟨h.owner, h.peer, ⟨?_, h.finQueued⟩, h.reads, h.plan⟩
  rw [h.state]
  cases fin <;> simp

/-- An endpoint that has a peer exists. -/
theorem Net.lt_size_of_peer (h : (n.pcb i).peer = some j) : i < n.pcbs.size := by
  rcases Nat.lt_or_ge i n.pcbs.size with hi | hi
  · exact hi
  · rw [Net.pcb_of_size_le hi] at h
    cases h

theorem Net.perform_write (n : Net) (i : Nat) (data : Bytes) (flags : WriteFlags) :
    n.perform i (.write data flags) = .ok ⟨(n.write i data).1, [], (n.write i data).2⟩ := rfl

namespace Net.Streams

theorem senderSize (h : n.Streams i j x y r said brought fin) : i < n.pcbs.size := lt_size_of_peer h.sender.peer

theorem receiverSize (h : n.Streams i j x y r said brought fin) : j < n.pcbs.size := lt_size_of_peer h.receiver.peer

/-! ## Operations -/

/-- The sender has changed, but not what it has taken in and sent. -/
theorem sent (h : n.Streams i j x y r said brought fin) {f : Pcb → Pcb} {said' : Bytes}
    (hf : (f (n.pcb i)).Speaks j x fin) (hs : said' = brought ++ (f (n.pcb i)).unsent.toList)
    (hw : (f (n.pcb i)).written = (f (n.pcb i)).unsent.size + (n.pcb j).received) :
    (n.update i f).Streams i j x y r said' brought fin := by
  have hi : (n.update i f).pcb i = f (n.pcb i) := pcb_update_self h.senderSize
  have hj : (n.update i f).pcb j = n.pcb j := pcb_update_of_ne h.ne.symm
  refine ⟨hi ▸ hf, hj ▸ h.receiver, h.ne, fun m h₁ h₂ => ?_, h.actions, h.options, hi ▸ hs, ?_, hj ▸ h.received⟩
  · rw [pcb_update_of_ne h₁]
    exact h.rest m h₁ h₂
  · rw [hi, hj]
    exact hw

/-- The sender has changed, but not in what it sends. -/
theorem sender_changed (h : n.Streams i j x y r said brought fin) {f : Pcb → Pcb} (hf : (f (n.pcb i)).Speaks j x fin)
    (hu : (f (n.pcb i)).unsent = (n.pcb i).unsent) (hw : (f (n.pcb i)).written = (n.pcb i).written) :
    (n.update i f).Streams i j x y r said brought fin := by
  refine h.sent hf ?_ ?_
  · rw [hu]
    exact h.said_eq
  · rw [hu, hw]
    exact h.written

/-- The receiver has changed, but not in what it has received. -/
theorem receiver_changed (h : n.Streams i j x y r said brought fin) {f : Pcb → Pcb}
    (hf : (f (n.pcb j)).Listens i y fin) (hr : (f (n.pcb j)).received = (n.pcb j).received) :
    (n.update j f).Streams i j x y r said brought fin := by
  have hi : (n.update j f).pcb i = n.pcb i := pcb_update_of_ne h.ne
  have hj : (n.update j f).pcb j = f (n.pcb j) := pcb_update_self h.receiverSize
  refine ⟨hi ▸ h.sender, hj ▸ hf, h.ne, fun m h₁ h₂ => ?_, h.actions, h.options, hi ▸ h.said_eq, ?_, ?_⟩
  · rw [pcb_update_of_ne h₂]
    exact h.rest m h₁ h₂
  · rw [hi, hj, hr]
    exact h.written
  · rw [hj, hr]
    exact h.received

/-- Another endpoint has changed. -/
theorem other_changed (h : n.Streams i j x y r said brought fin) {f : Pcb → Pcb} {m : Nat} (hi : m ≠ i) (hj : m ≠ j)
    (hf : (f (n.pcb m)).AtRest) : (n.update m f).Streams i j x y r said brought fin := by
  have hpi : (n.update m f).pcb i = n.pcb i := pcb_update_of_ne hi.symm
  have hpj : (n.update m f).pcb j = n.pcb j := pcb_update_of_ne hj.symm
  refine ⟨hpi ▸ h.sender, hpj ▸ h.receiver, h.ne, fun m' h₁ h₂ => ?_, h.actions, h.options, hpi ▸ h.said_eq, ?_,
    hpj ▸ h.received⟩
  · by_cases hm : m' = m
    · subst hm
      rcases Nat.lt_or_ge m' n.pcbs.size with hlt | hge
      · rw [pcb_update_self hlt]
        exact hf
      · rw [pcb_of_size_le (by simpa using hge)]
        exact Pcb.atRest_default
    · rw [pcb_update_of_ne hm]
      exact h.rest m' h₁ h₂
  · rw [hpi, hpj]
    exact h.written

/-- **A write** at the sender takes all of the data or nothing of it. -/
theorem write_sender (h : n.Streams i j x y r said brought fin) (data : Bytes) :
    (n.write i data).2 = .ok () ∧ (n.write i data).1.Streams i j x y r (said ++ data) brought fin ∨
      (n.write i data).2 ≠ .ok () ∧ (n.write i data).1 = n := by
  have hs := h.sender
  unfold Net.write
  simp only
  split
  · exact .inr ⟨by simp, rfl⟩
  · rename_i hopen
    split
    · rename_i hempty
      refine .inl ⟨rfl, ?_⟩
      rw [List.isEmpty_iff.1 hempty, List.append_nil]
      exact h
    · split
      · exact .inr ⟨by simp, rfl⟩
      · refine .inl ⟨rfl, h.sent ⟨hs.owner, hs.peer, hs.unsent.push, hs.plan, ?_⟩ ?_ ?_⟩
        · -- one that has said goodbye, or is about to, takes nothing
          cases hs.parts with
          | «open» hst hq hf => exact .open hst hq hf
          | closing _ hq => simp [hq] at hopen
          | parted _ hq => simp [hq] at hopen
        · rw [h.said_eq, Segments.toList_push, List.append_assoc]
        · show (n.pcb i).written + data.length = ((n.pcb i).unsent.push data).size + (n.pcb j).received
          rw [Segments.size_push, h.written]
          omega

/-- A write at the receiver. -/
theorem write_receiver (h : n.Streams i j x y r said brought fin) (data : Bytes) :
    (n.write j data).1.Streams i j x y r said brought fin := by
  have hj := h.receiver
  unfold Net.write
  simp only
  split
  · exact h
  · split
    · exact h
    · split
      · exact h
      · exact h.receiver_changed ⟨hj.owner, hj.peer, hj.state, hj.finQueued, hj.reads, hj.plan, hj.acked⟩ rfl

/-- A close of the sender, which the engine may refuse. -/
theorem close_sender (h : n.Streams i j x y r said brought fin) :
    (n.close i).1.Streams i j x y r said brought fin := by
  have hs := h.sender
  unfold Net.close
  simp only
  split
  · exact h.sender_changed ⟨hs.owner, hs.peer, hs.unsent, hs.plan, hs.parts.congr rfl rfl rfl rfl⟩ rfl rfl
  · have h₁ : (n.update i fun p => { p with rxClosed := true }).Streams i j x y r said brought fin :=
      h.sender_changed ⟨hs.owner, hs.peer, hs.unsent, hs.plan, hs.parts.congr rfl rfl rfl rfl⟩ rfl rfl
    cases hs.parts with
    | «open» hst =>
      rw [hst]
      refine h₁.sender_changed (h₁.sender.shut ?_) rfl rfl
      rw [pcb_update_self h.senderSize]
      exact hst
    | closing hst =>
      rw [hst]
      exact h₁
    | parted hst =>
      rw [hst]
      exact h₁

/-- A shutdown of halves of the sender. -/
theorem shutdown_sender (h : n.Streams i j x y r said brought fin) (dir : Direction) :
    (n.shutdown i dir).1.Streams i j x y r said brought fin := by
  have hs := h.sender
  have h₁ : (if dir = .write then n else n.update i fun p => { p with rxClosed := true }).Streams i j x y r said
      brought fin := by
    split
    · exact h
    · exact h.sender_changed ⟨hs.owner, hs.peer, hs.unsent, hs.plan, hs.parts.congr rfl rfl rfl rfl⟩ rfl rfl
  unfold Net.shutdown
  simp only
  generalize (if dir = .write then n else n.update i fun p => { p with rxClosed := true }) = n₁ at h₁
  split
  · exact h₁
  · cases h₁.sender.parts with
    | «open» hst =>
      rw [hst]
      exact h₁.sender_changed (h₁.sender.shut hst) rfl rfl
    | closing hst =>
      rw [hst]
      exact h₁
    | parted hst =>
      rw [hst]
      exact h₁

/-- **An operation of the sender**, other than a write. -/
theorem perform_sender (h : n.Streams i j x y r said brought fin) {o : PcbOp} {res : Result o.Reply}
    (ho : o.isCalm = true) (hw : ∀ d f, o ≠ .write d f) (ha : ∀ id, o = .attach id → id = x)
    (hr : n.perform i o = .ok res) : res.net.Streams i j x y r said brought fin := by
  have hs := h.sender
  have hparts : ∀ {q : Pcb}, q.state = (n.pcb i).state → q.finQueued = (n.pcb i).finQueued →
      q.finSent = (n.pcb i).finSent → q.unsent = (n.pcb i).unsent → q.Parts fin := hs.parts.congr
  cases o with
  | bind | connect | listen | abort => cases ho
  | write d f => exact absurd rfl (hw d f)
  | output | mss | sndbuf | sndqueuelen | nagleDisabled | localAddr | remoteAddr | state =>
    cases hr
    exact h
  | recved len =>
    unfold perform recved at hr
    simp only at hr
    split at hr
    · cases hr
    · cases hr
      exact h.sender_changed ⟨hs.owner, hs.peer, hs.unsent, hs.plan, hparts rfl rfl rfl rfl⟩ rfl rfl
  | close =>
    cases hr
    exact h.close_sender
  | shutdown dir =>
    cases hr
    exact h.shutdown_sender dir
  | setNagle | setPrio | setPollInterval =>
    cases hr
    exact h.sender_changed ⟨hs.owner, hs.peer, hs.unsent, hs.plan, hparts rfl rfl rfl rfl⟩ rfl rfl
  | detach =>
    cases hr
    exact h.sender_changed ⟨.inl rfl, hs.peer, hs.unsent, hs.plan, hparts rfl rfl rfl rfl⟩ rfl rfl
  | attach id =>
    cases hr
    have hattach : n.attach i id = n.update i fun p => { p with owner := some id } :=
      update_congr (if_pos (by simp [hs.state_ne]))
    rw [hattach]
    exact h.sender_changed ⟨.inr (congrArg some (ha id rfl)), hs.peer, hs.unsent, hs.plan, hparts rfl rfl rfl rfl⟩ rfl rfl

/-- **An operation of the receiver.** -/
theorem perform_receiver (h : n.Streams i j x y r said brought fin) {o : PcbOp} {res : Result o.Reply}
    (ho : o.isMild = true) (hr : n.perform j o = .ok res) : res.net.Streams i j x y r said brought fin := by
  have hj := h.receiver
  cases o with
  | bind | connect | listen | abort | close | shutdown | attach | detach => cases ho
  | write d f =>
    cases hr
    exact h.write_receiver d
  | output | mss | sndbuf | sndqueuelen | nagleDisabled | localAddr | remoteAddr | state =>
    cases hr
    exact h
  | recved len =>
    unfold perform recved at hr
    simp only at hr
    split at hr
    · cases hr
    · cases hr
      exact h.receiver_changed ⟨hj.owner, hj.peer, hj.state, hj.finQueued, hj.reads, hj.plan, Nat.min_le_right ..⟩ rfl
  | setNagle | setPrio | setPollInterval =>
    cases hr
    exact h.receiver_changed ⟨hj.owner, hj.peer, hj.state, hj.finQueued, hj.reads, hj.plan, hj.acked⟩ rfl

/-! ## Timers, plans and new endpoints -/

/-- A new endpoint plays no part. -/
theorem add_default (h : n.Streams i j x y r said brought fin) : (n.add {}).2.Streams i j x y r said brought fin := by
  have hpcb : ∀ m, (n.add {}).2.pcb m = n.pcb m := by
    intro m
    rw [pcb_add]
    split
    · rename_i hm
      rw [hm, pcb_of_size_le (Nat.le_refl _)]
    · rfl
  refine ⟨hpcb i ▸ h.sender, hpcb j ▸ h.receiver, h.ne, fun m h₁ h₂ => hpcb m ▸ h.rest m h₁ h₂, h.actions, h.options,
    hpcb i ▸ h.said_eq, ?_, hpcb j ▸ h.received⟩
  rw [hpcb, hpcb]
  exact h.written

/-- An endpoint has another plan of sizes, or other closes fail. -/
theorem planned (h : n.Streams i j x y r said brought fin) {f : Pcb → Pcb} (id : Handle)
    (hf : ∀ p, ∃ plan k, f p = { p with splitPlan := plan, closeFailures := k } ∧
      ((∀ s ∈ p.splitPlan, 0 < s) → ∀ s ∈ plan, 0 < s)) :
    (n.updateOwned id f).1.Streams i j x y r said brought fin := by
  unfold updateOwned
  split
  · rename_i m _
    obtain ⟨plan, k, heq, hplan⟩ := hf (n.pcb m)
    rw [update_congr (g := fun _ => { n.pcb m with splitPlan := plan, closeFailures := k }) heq]
    by_cases hi : m = i
    · subst hi
      have hs := h.sender
      exact h.sender_changed ⟨hs.owner, hs.peer, hs.unsent, hplan hs.plan, hs.parts.congr rfl rfl rfl rfl⟩ rfl rfl
    · by_cases hj : m = j
      · subst hj
        have hs := h.receiver
        exact h.receiver_changed ⟨hs.owner, hs.peer, hs.state, hs.finQueued, hs.reads, hplan hs.plan, hs.acked⟩ rfl
      · exact h.other_changed hi hj ⟨(h.rest m hi hj).silent, (h.rest m hi hj).unpolled⟩
  · exact h

theorem split (h : n.Streams i j x y r said brought fin) (id : Handle) (sizes : List Nat) :
    (n.split id sizes).1.Streams i j x y r said brought fin := by
  refine h.planned id fun p => ⟨_, _, rfl, fun hp s hs => ?_⟩
  rcases List.mem_append.1 hs with hs | hs
  · exact hp s hs
  · simpa using (List.mem_filter.1 hs).2

theorem failCloses (h : n.Streams i j x y r said brought fin) (id : Handle) (count : Nat) :
    (n.failCloses id count).1.Streams i j x y r said brought fin :=
  h.planned id fun _ => ⟨_, _, rfl, fun hp => hp⟩

/-- **One beat of the poll timers.** Only the two connections hear of it. -/
theorem tick (h : n.Streams i j x y r said brought fin) :
    n.tick.1.Streams i j x y r said brought fin ∧ ∀ id ∈ n.tick.2, id = x ∨ id = y := by
  constructor
  · obtain ⟨k, hi⟩ := Pcb.beat_fst (n.pcb i)
    obtain ⟨k', hj⟩ := Pcb.beat_fst (n.pcb j)
    have hs := h.sender
    have hl := h.receiver
    refine ⟨?_, ?_, h.ne, fun m h₁ h₂ => ?_, h.actions, h.options, ?_, ?_, ?_⟩
    · rw [pcb_tick, hi]
      exact ⟨hs.owner, hs.peer, hs.unsent, hs.plan, hs.parts.congr rfl rfl rfl rfl⟩
    · rw [pcb_tick, hj]
      exact ⟨hl.owner, hl.peer, hl.state, hl.finQueued, hl.reads, hl.plan, hl.acked⟩
    · obtain ⟨k, hm⟩ := Pcb.beat_fst (n.pcb m)
      rw [pcb_tick, hm]
      exact ⟨(h.rest m h₁ h₂).silent, (h.rest m h₁ h₂).unpolled⟩
    · rw [pcb_tick, hi]
      exact h.said_eq
    · rw [pcb_tick, pcb_tick, hi, hj]
      exact h.written
    · rw [pcb_tick, hj]
      exact h.received
  · intro id hid
    unfold Net.tick at hid
    obtain ⟨⟨q, due⟩, hq, hid⟩ := List.mem_filterMap.1 hid
    rw [Array.mem_toList_iff] at hq
    obtain ⟨m, hm, hget⟩ := Array.mem_iff_getElem.1 hq
    rw [Array.size_map] at hm
    rw [Array.getElem_map] at hget
    have hp : n.pcbs[m] = n.pcb m := by
      unfold pcb
      rw [Array.getD_eq_getD_getElem?, Array.getElem?_eq_getElem hm, Option.getD_some]
    rw [hp] at hget
    -- the endpoint has a timer and an owner
    have hdue : (n.pcb m).pollInterval ≠ 0 ∧ (n.pcb m).owner = some id := by
      unfold Pcb.beat at hget
      split at hget
      · cases hget
        simp at hid
      · rename_i hrun
        simp only [Bool.or_eq_true, decide_eq_true_eq, not_or] at hrun
        split at hget
        · cases hget
          simp at hid
        · cases hget
          exact ⟨hrun.1, by simpa using hid⟩
    by_cases hi : m = i
    · subst hi
      rcases h.sender.owner with ho | ho
      · simp [ho] at hdue
      · exact .inl (Option.some.inj (hdue.2.symm.trans ho))
    · by_cases hj : m = j
      · subst hj
        exact .inr (Option.some.inj (hdue.2.symm.trans h.receiver.owner))
      · rcases (h.rest m hi hj).unpolled with hu | hu
        · exact absurd hu hdue.1
        · simp [hu] at hdue

/-! ## Steps -/

theorem pend (h : n.Streams i j x y r said brought fin) {m len : Nat} (hm : m = i ∨ m = j) :
    (n.pend (.sent m len)).Streams i j x y r said brought fin := by
  refine ⟨h.sender, h.receiver, h.ne, h.rest, fun a ha => ?_, h.options, h.said_eq, h.written, h.received⟩
  rcases List.mem_append.1 ha with ha | ha
  · exact h.actions a ha
  · cases List.mem_singleton.1 ha
    exact ⟨len, hm.imp (fun hm => by rw [hm]) fun hm => by rw [hm]⟩

theorem settled (h : n.Streams i j x y r said brought fin) {a : Action} {rest : List Action}
    (hr : n.actions = a :: rest) : { n with actions := rest }.Streams i j x y r said brought fin :=
  ⟨h.sender, h.receiver, h.ne, h.rest, fun a' ha => h.actions a' (by rw [hr]; exact List.mem_cons_of_mem _ ha),
    h.options, h.said_eq, h.written, h.received⟩

theorem turned (h : n.Streams i j x y r said brought fin) (cursor : Nat) :
    { n with cursor }.Streams i j x y r said brought fin :=
  ⟨h.sender, h.receiver, h.ne, h.rest, h.actions, h.options, h.said_eq, h.written, h.received⟩

/-- Goodbye is the last that is said. -/
theorem all_brought (h : n.Streams i j x y r said brought true) : (n.pcb i).unsent.toList = [] ∧ said = brought := by
  cases h.sender.parts with
  | parted _ _ _ hu =>
    refine ⟨hu, ?_⟩
    rw [h.said_eq, hu, List.append_nil]

/-- The sender has sent a segment. -/
theorem sends (h : n.Streams i j x y r said brought fin) (hs : n.Sends i j text n') :
    fin = false ∧ n'.Streams i j x y r said (brought ++ text) fin := by
  obtain ⟨rest, plan, hu, hw, hplan, hi⟩ := hs.source
  obtain ⟨k, hj⟩ := hs.target
  have hsp := h.sender
  have hli := h.receiver
  have hfin : fin = false := by
    cases hsp.parts with
    | «open» => rfl
    | closing => rfl
    | parted _ _ _ he =>
      rw [he] at hu
      exact absurd (List.append_eq_nil_iff.1 hu.symm).1 hs.nonempty
  have hsize : (n.pcb i).unsent.size = text.length + rest.size := by
    rw [hsp.unsent.size_eq, hu, List.length_append, hw.size_eq]
  have hwritten := h.written
  have hreceived := h.received
  subst hfin
  refine ⟨rfl, ?_, ?_, h.ne, fun m h₁ h₂ => ?_, fun a ha => ?_, hs.options ▸ h.options, ?_, ?_, ?_⟩
  · rw [hi]
    refine ⟨hsp.owner, hsp.peer, hw, hplan hsp.plan, ?_⟩
    cases hsp.parts with
    | «open» h₁ h₂ h₃ => exact .open h₁ h₂ h₃
    | closing h₁ h₂ h₃ => exact .closing h₁ h₂ h₃
  · rw [hj]
    exact ⟨hli.owner, hli.peer, hli.state, hli.finQueued, hli.reads, hli.plan, Nat.le_add_right_of_le hli.acked⟩
  · rw [hs.others m h₁ h₂]
    exact h.rest m h₁ h₂
  · rw [hs.actions] at ha
    rcases List.mem_append.1 ha with ha | ha
    · exact h.actions a ha
    · exact ⟨_, .inl (List.mem_singleton.1 ha)⟩
  · rw [hi, h.said_eq, hu, List.append_assoc]
  · rw [hi, hj]
    show (n.pcb i).written = rest.size + ((n.pcb j).received + text.length)
    omega
  · rw [hj, List.length_append]
    show (n.pcb j).received + text.length = r + (brought.length + text.length)
    omega

/-- The receiver has sent a segment of its own. -/
theorem sendSegment_back (h : n.Streams i j x y r said brought fin) {res : Result (Nat × Delivery)}
    (hr : n.sendSegment j i = some res) :
    res.net.Streams i j x y r said brought fin ∧
      (res.value = (i, .nothing) ∨ ∃ text, res.value = (i, .event (.recv text))) := by
  have hli := h.receiver
  unfold sendSegment at hr
  simp only at hr
  generalize hchunk : n.room (n.pcb j) (n.pcb i) = chunk at hr
  split at hr
  · cases hr
  · have h₁ : (n.update j fun p => { p with
        splitPlan := planAfter chunk p.splitPlan, unsent := (p.unsent.read chunk).2 }).Streams i j x y r said brought fin :=
      h.receiver_changed ⟨hli.owner, hli.peer, hli.state, hli.finQueued, hli.reads, planAfter_pos hli.plan _, hli.acked⟩
        rfl
    have h₂ : (Net.pend _ (.sent j chunk)).Streams i j x y r said brought fin := h₁.pend (.inr rfl)
    have hs := h₂.sender
    split at hr <;> cases hr <;>
      refine ⟨h₂.sender_changed ⟨hs.owner, hs.peer, hs.unsent, hs.plan, hs.parts.congr rfl rfl rfl rfl⟩ rfl rfl, ?_⟩
    · exact .inl rfl
    · exact .inr ⟨_, rfl⟩

/-- **Goodbye**, once all has been brought. -/
theorem sendFin (h : n.Streams i j x y r said brought fin) (hu : (n.pcb i).unsent.toList = [])
    (hq : (n.pcb i).finQueued = true) (hf : (n.pcb i).finSent = false) :
    fin = false ∧ (n.sendFin i j).net.Streams i j x y r said brought true ∧ (n.sendFin i j).value = (j, .event .eof) := by
  have hs := h.sender
  have hl := h.receiver
  cases hs.parts with
  | «open» _ hq' => simp [hq] at hq'
  | parted _ _ hf' => simp [hf] at hf'
  | closing hst =>
    let n₁ := n.update i fun p => { p with
      finSent := true
      state := afterFinSent p.state
      owner := if afterFinSent p.state = .closed then none else p.owner }
    let n₂ := n₁.update j fun p => { p with finReceived := true, state := afterFinReceived p.state }
    have hi : n₂.pcb i = { n.pcb i with finSent := true, state := .finWait2 } := by
      rw [pcb_update_of_ne h.ne, pcb_update_self h.senderSize, hst]
      rfl
    have hj : n₂.pcb j = { n.pcb j with finReceived := true, state := .closeWait } := by
      rw [pcb_update_self (by rw [size_update]; exact h.receiverSize), pcb_update_of_ne h.ne.symm, hl.state]
      rfl
    have hstreams : n₂.Streams i j x y r said brought true := by
      refine ⟨?_, ?_, h.ne, fun m h₁ h₂ => ?_, h.actions, h.options, ?_, ?_, ?_⟩
      · rw [hi]
        exact ⟨hs.owner, hs.peer, hs.unsent, hs.plan, .parted rfl hq rfl hu⟩
      · rw [hj]
        exact ⟨hl.owner, hl.peer, rfl, hl.finQueued, hl.reads, hl.plan, hl.acked⟩
      · rw [pcb_update_of_ne h₂, pcb_update_of_ne h₁]
        exact h.rest m h₁ h₂
      · rw [hi]
        exact h.said_eq
      · rw [hi, hj]
        exact h.written
      · rw [hj]
        exact h.received
    have heard : ¬ ((n₂.pcb j).rxClosed || (n₂.pcb j).owner.isNone) = true := by
      simp [hj, hl.reads, hl.owner]
    unfold Net.sendFin
    simp only [n₂, n₁] at heard hstreams
    rw [if_neg heard]
    exact ⟨rfl, hstreams, rfl⟩

/-- What a step of the net brings to whom. -/
inductive Steps (i j : Nat) (x y : Handle) (r : Nat) (said brought : Bytes) : Bool → Result (Nat × Delivery) → Prop
  | report {n' : Net} {notes : List Note} {fin : Bool} {m len : Nat} (hm : m = i ∨ m = j)
      (h : n'.Streams i j x y r said brought fin) : Steps i j x y r said brought fin ⟨n', notes, (m, .event (.sent len))⟩
  | data {n' : Net} {notes : List Note} {text : Bytes} (hne : text ≠ [])
      (h : n'.Streams i j x y r said (brought ++ text) false) :
      Steps i j x y r said brought false ⟨n', notes, (j, .event (.recv text))⟩
  | goodbye {n' : Net} {notes : List Note} (h : n'.Streams i j x y r said brought true) :
      Steps i j x y r said brought false ⟨n', notes, (j, .event .eof)⟩
  | back {n' : Net} {notes : List Note} {fin : Bool} {text : Bytes} (h : n'.Streams i j x y r said brought fin) :
      Steps i j x y r said brought fin ⟨n', notes, (i, .event (.recv text))⟩
  | unread {n' : Net} {notes : List Note} {fin : Bool} (h : n'.Streams i j x y r said brought fin) :
      Steps i j x y r said brought fin ⟨n', notes, (i, .nothing)⟩

theorem transmit_cases (h : n.Streams i j x y r said brought fin) {m cursor : Nat} {res : Result (Nat × Delivery)}
    (ht : n.transmit m = some res) : Steps i j x y r said brought fin { res with net := { res.net with cursor } } := by
  obtain ⟨n', notes, value⟩ := res
  by_cases hi : m = i
  · subst hi
    unfold transmit at ht
    rw [h.sender.peer] at ht
    simp only [if_neg h.sender.state_ne] at ht
    split at ht
    · obtain ⟨text, hs, rfl⟩ := sendSegment_joined h.ne h.senderSize h.receiverSize h.sender.unsent h.receiver.joins ht
      obtain ⟨rfl, hstreams⟩ := h.sends (hs.turned cursor)
      exact .data hs.nonempty hstreams
    · rename_i hempty
      split at ht
      · rename_i hfin
        simp only [Bool.and_eq_true, Bool.not_eq_true'] at hfin
        have hu : (n.pcb m).unsent.toList = [] := h.sender.unsent.isEmpty_iff.1 (by simpa using hempty)
        obtain ⟨rfl, hstreams, hvalue⟩ := h.sendFin hu hfin.1 hfin.2
        have hr := Option.some.inj ht
        rw [hr] at hstreams hvalue
        subst hvalue
        exact .goodbye (hstreams.turned cursor)
      · cases ht
  · by_cases hj : m = j
    · subst hj
      rw [transmit_joined h.receiver.joins] at ht
      split at ht
      · obtain ⟨hstreams, hvalue | ⟨text, hvalue⟩⟩ := h.sendSegment_back ht
        · subst hvalue
          exact .unread (hstreams.turned cursor)
        · subst hvalue
          exact .back (hstreams.turned cursor)
      · cases ht
    · rw [transmit_silent (h.rest m hi hj).silent] at ht
      cases ht

/-- **A step of the net** reports what was sent, brings data or the goodbye of the sender, or data of the receiver. -/
theorem next_cases (h : n.Streams i j x y r said brought fin) {res : Result (Nat × Delivery)} (hr : n.next = some res) :
    Steps i j x y r said brought fin res := by
  unfold next at hr
  split at hr
  · rename_i a rest ha
    cases hr
    obtain ⟨len, rfl | rfl⟩ := h.actions a (by rw [ha]; exact List.mem_cons_self)
    · exact .report (.inl rfl) (h.settled ha)
    · exact .report (.inr rfl) (h.settled ha)
  · obtain ⟨m, res, cursor, ht, rfl⟩ := transmitFrom_some hr
    exact h.transmit_cases ht

/-- **When there is no step**, all has been brought, unless the receiver owes acknowledgements. -/
theorem stuck (h : n.Streams i j x y r said brought fin) (hn : n.next = none)
    (ha : (n.pcb j).received ≤ (n.pcb j).acked) : (n.pcb i).unsent.toList = [] := by
  obtain ⟨hmss, -, hwindow⟩ := Options.positive h.options
  have ht := (next_eq_none hn h.senderSize).2
  refine Classical.byContradiction fun hne => ?_
  have hfull := full_of_transmit h.sender.peer h.sender.state_ne h.sender.unsent h.sender.plan hmss hne ht
  have houtstanding := hfull.2.2
  unfold Pcb.outstanding at houtstanding
  omega

end Net.Streams

end Loopback

end Conduit
