import Conduit.Proofs.Stack.Delivery

/-!
# The stream between two plain connections

Two plain connections stand over the two ends of a connection of the loopback net. The application writes at the sender,
closes it or a half of it, lets the net move and its timers beat, lays down sizes for segments, accepts or refuses what
is handed to it at the receiver, acknowledges it when it likes, all of this from outside or from its callbacks, and keeps
a diary.

* `Channel.Begins`: how it can begin.
* `Channel.Intact`: what is true of the diary, of the counts of the net and of what is held and not sent.
* `Begins.run_intact`: **whatever the application does, the stream is intact.**
-/

namespace Conduit

open Exec Loopback

namespace Stack

namespace Channel

variable {H : Host} (c : Channel)

/-- The two connections at the beginning: the receiver has been handed nothing, and nothing is in the diary. -/
structure Begins (w : World H.diarist) : Prop where
  around : c.Around .idle w.stack
  fresh : c.Holds w.stack (Plain.ofPcb (.loopback c.target))
  queue : w.stack.queue = []
  depth : w.stack.depth = 0
  net : w.net.Streams c.source c.target c.sender c.receiver c.base c.backlog [] false
  diary : w.memory.2 = []

/-- **An intact stream.** -/
structure Intact (w : World H.diarist) : Prop where
  /-- The bytes that were written at the sender are not sent yet, or were received. -/
  written : (w.net.pcb c.source).written = (w.net.pcb c.source).unsent.size + (w.net.pcb c.target).received
  /-- What was said was delivered, or is not sent yet; what was delivered was accepted, or is held by the receiver. -/
  bytes : ∃ P delivered, c.Holds w.stack P ∧ c.said w.memory.2 = delivered ++ (w.net.pcb c.source).unsent.toList ∧
    delivered = accepted c.receiver w.memory.2 ++ P.rx.toList ∧
    (w.net.pcb c.target).received = c.base + delivered.length
  /-- At all times, what the receiver had accepted was a prefix of what had been said. -/
  prefixes : ∀ t, t <+: w.memory.2 → accepted c.receiver t <+: c.said t
  /-- When the receiver was told of the end of the stream, it had accepted all that was ever said; it was told nothing
  after that. -/
  last : ∀ t v u, w.memory.2 = t ++ .got c.receiver none v :: u →
    accepted c.receiver t = c.said w.memory.2 ∧ ∀ data v', .got c.receiver data v' ∉ u
  /-- When the net has settled, nothing was refused, and what was accepted is acknowledged, all was accepted. -/
  settled : w.net.next = none → refused c.receiver w.memory.2 = false →
    c.base + (accepted c.receiver w.memory.2).length ≤ (w.net.pcb c.target).acked →
    accepted c.receiver w.memory.2 = c.said w.memory.2 ∧ (w.net.pcb c.target).acked = (w.net.pcb c.target).received

variable {c} {w w' : World H.diarist} {b : Behaviour H.diarist} {ds u : List Deed}

theorem Begins.at (h : c.Begins w) : c.At .idle w := by
  have hsaid : c.said w.memory.2 = c.backlog := by
    unfold Channel.said
    rw [h.diary]
    exact List.append_nil _
  refine ⟨⟨⟨[], false, _, hsaid ▸ h.net, ⟨h.around, ?_, ?_⟩, h.fresh⟩, h.depth⟩, fun _ => h.queue⟩
  · rw [h.diary]
    unfold Slots.offers
    rw [h.queue]
    exact ⟨rfl, ⟨rfl, nofun⟩, rfl, rfl, rfl, .nothing rfl rfl, .inr (.inr rfl)⟩
  · rw [h.diary]
    refine ⟨fun t ht => ?_, fun t v u hu => ?_⟩
    · rw [List.prefix_nil.1 ht]
      exact List.nil_prefix
    · simp at hu

/-- What was told of the receiver last leaves what it has accepted. -/
theorem accepted_last {t : List Deed} {v : Outcome} (hu : ∀ data v', .got c.receiver data v' ∉ u) :
    accepted c.receiver (t ++ .got c.receiver none v :: u) = accepted c.receiver t := by
  rw [← List.singleton_append, accepted_append, accepted_append, accepted_end, accepted_eq_nil hu]
  simp

/-- **The stream is intact** whenever the application is not at work. -/
theorem At.stream_intact (h : c.At .idle w) : c.Intact w := by
  obtain ⟨⟨⟨brought, fin, P, hn, ha, hh⟩, hd⟩, hq⟩ := h
  have htakes := ha.takes
  have hout : Phase.idle.work ++ w.stack.offers c.receiver = [] := by
    unfold Slots.offers
    rw [hq rfl]
    rfl
  rw [hout] at htakes
  refine ⟨hn.written, ⟨P, brought, hh, hn.said_eq, htakes.brought_eq, hn.received⟩, ha.kept.prefixes,
    fun t v u hu => ?_, fun hnext hrefused hacked => ?_⟩
  · obtain ⟨-, hlast⟩ := ha.kept.last t v u hu
    refine ⟨?_, hlast⟩
    -- the end of the stream was told, so all was brought, and nothing is held
    have hended : ended c.receiver w.memory.2 = true := by
      rw [hu, ← List.singleton_append, ended_append, ended_append, ended_end]
      simp
    obtain ⟨hf, he⟩ := htakes.out.settled.2 hended
    rw [htakes.fin.symm.trans hf] at hn
    rw [hn.all_brought.2, htakes.brought_eq, he, List.append_nil, hu, accepted_last hlast]
  · -- nothing was refused, so nothing is held
    have hheld : P.rx.toList = [] := by
      rcases htakes.eager with hr | hi | he
      · simp [hrefused] at hr
      · simp [htakes.out.settled.1] at hi
      · exact he
    have hbrought : brought = accepted c.receiver w.memory.2 := by
      rw [htakes.brought_eq, hheld, List.append_nil]
    have hreceived := hn.received
    rw [hbrought] at hreceived
    have hunsent := hn.stuck hnext (hreceived ▸ hacked)
    refine ⟨?_, ?_⟩
    · rw [hn.said_eq, hunsent, List.append_nil, hbrought]
    · have := hn.receiver.acked
      omega

/-! ## A sender and a grudging receiver -/

/-- A host whose callbacks count what they are handed. -/
@[reducible] def counter : Host where
  Memory := Unit
  Code := Nat
  Layer := Empty
  Pcb := Empty
  Engine := Empty
  Shared := Unit
  Source := Unit

/-- The first data is refused; what comes after it is accepted and acknowledged. -/
def grudging : Behaviour counter.diarist where
  callback
    | n, .recv me (some data) =>
      if n = 0 then .done (1, .error .wouldBlock)
      else .ask (.ask me (.recved data.length)) fun _ => .done (n + 1, .ok ())
    | n, _ => .done (n, .ok ())
  layer l := nomatch l
  layerName l := nomatch l
  pcb p := nomatch p
  note _ m := m
  engine := {
    isHandshaking := fun e => nomatch e
    handshake := fun e => nomatch e
    decrypt := fun e => nomatch e
    encrypt := fun e => nomatch e
    flush := fun e => nomatch e
    wantsWrite := fun e => nomatch e
    buffered := fun e => nomatch e
    closeNotify := fun e => nomatch e
    info := fun e => nomatch e }
  newEngine _ _ v := (.error .invalidArgument, v)

/-- Two connections and their endpoints. -/
def line : Channel :=
  { sender := ⟨0, 0⟩, receiver := ⟨1, 0⟩, source := 0, target := 1, base := 0, backlog := [], epoch := 0 }

/-- A fresh connection over an endpoint. -/
def newcomer (i : Nat) (recv : Option Nat) : Entry counter.diarist :=
  { layer := some (.plain (.ofPcb (.loopback i))), name := "tcp", callbacks := { recv } }

/-- They have just been joined. -/
def joined : World counter.diarist where
  stack := {
    slots := #[{ entry := some (newcomer 0 none) }, { entry := some (newcomer 1 (some 0)) }]
    live := 2 }
  net := {
    options := { mss := 3, sndbuf := 8, window := 5 }
    pcbs := #[{ owner := some ⟨0, 0⟩, state := .established, peer := some 1 },
      { owner := some ⟨1, 0⟩, state := .established, peer := some 0 }] }
  shared := ()
  memory := ((), [])

theorem joined_begins : line.Begins joined where
  around := by
    refine ⟨by decide, fun e he => ?_, ⟨_, rfl, rfl, rfl, rfl, fun _ => nofun⟩, nofun, rfl⟩
    cases he
    exact ⟨rfl, rfl, fun l hl => ⟨_, (Option.some.inj hl).symm, .inr rfl, nofun⟩⟩
  fresh := ⟨_, rfl, rfl⟩
  queue := rfl
  depth := rfl
  net := by
    refine ⟨⟨.inr rfl, rfl, ⟨rfl, nofun⟩, nofun, .open rfl rfl rfl⟩, ⟨rfl, rfl, rfl, rfl, rfl, nofun, Nat.le_refl 0⟩,
      by decide, fun m h₁ h₂ => ?_, nofun, rfl, rfl, rfl, rfl⟩
    have hsize : 2 ≤ m := by
      have h₁ : m ≠ 0 := h₁
      have h₂ : m ≠ 1 := h₂
      omega
    rw [Net.pcb_of_size_le hsize]
    exact Pcb.atRest_default
  diary := rfl

theorem grudging_fairCalls : line.FairCalls grudging := by
  intro n call hcalls
  cases call with
  | recv me data =>
    cases data with
    | none => trivial
    | some data =>
      show Program.Asks _ (if n = 0 then _ else _)
      split
      · trivial
      · exact ⟨hcalls.imp (fun hid => ⟨hid, rfl, nofun⟩) fun hid => ⟨hid, rfl⟩, fun _ => trivial⟩
  | _ => trivial

/-- Five bytes are sent in small segments; then a sixth is written, and the sender closes. -/
def letter : Act counter.diarist Unit :=
  .ask (.split line.sender [2, 1]) fun _ =>
  .ask (.ask line.sender (.write [1, 2, 3, 4, 5] .copy)) fun _ =>
  .ask .step fun _ =>
  .ask .settle fun _ =>
  .ask (.ask line.sender (.write [6] .copy)) fun _ =>
  .ask (.ask line.sender .close) fun _ =>
  .ask .tick fun _ =>
  .ask .settle fun _ => .done ()

theorem letter_fair : letter.Asks line.Fair :=
  ⟨trivial, fun _ => ⟨.inl ⟨rfl, rfl, nofun⟩, fun _ => ⟨trivial, fun _ => ⟨trivial, fun _ =>
    ⟨.inl ⟨rfl, rfl, nofun⟩, fun _ => ⟨.inl ⟨rfl, rfl, nofun⟩, fun _ => ⟨trivial, fun _ => ⟨trivial, fun _ =>
      trivial⟩⟩⟩⟩⟩⟩⟩⟩

/-! ## The stream -/

/-- **Plain stream integrity.** Two plain connections stand over the two ends of a connection of the loopback net, with
whatever options and plans of sizes. Whatever the application asks for from then on, from outside and from its
callbacks, as long as it does not abort, close or silence the receiver: the stream is intact. -/
theorem Begins.run_intact {α : Type} {a : α} {p : Act H.diarist α} {k : Nat} (h : c.Begins w)
    (hb : c.FairCalls b) (hp : p.Asks c.Fair)
    (hrun : run b.diarist k (withDiary p) w = .ok a w') : c.Intact w' :=
  At.stream_intact (run_upholds hb hp k w h.at a w' hrun)

theorem Begins.run_intact_letter : ∃ w', run grudging.diarist 30 (withDiary letter) joined = .ok () w' ∧
    accepted line.receiver w'.memory.2 = [1, 2, 3, 4, 5, 6] ∧ refused line.receiver w'.memory.2 = true ∧
    ended line.receiver w'.memory.2 = true ∧ line.Intact w' := by
  have hreaches : reaches (run grudging.diarist 30 (withDiary letter)) joined (fun _ w' =>
      accepted line.receiver w'.memory.2 = [1, 2, 3, 4, 5, 6] && refused line.receiver w'.memory.2 &&
        ended line.receiver w'.memory.2) = true := by decide +kernel
  obtain ⟨_, w', hrun, hend⟩ := exists_of_reaches hreaches
  simp only [Bool.and_eq_true, decide_eq_true_eq] at hend
  obtain ⟨⟨haccepted, hrefused⟩, hended⟩ := hend
  exact ⟨w', hrun, haccepted, hrefused, hended,
    Begins.run_intact joined_begins grudging_fairCalls letter_fair hrun⟩

end Channel

end Stack

end Conduit
