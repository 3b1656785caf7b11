import Conduit.Proofs.Loopback.Edits
import Mathlib.Logic.Function.Iterate

/-!
# Ephemeral ports

A net looks for a port from the next one on, round by round, and begins again at the first when it has tried the last. The
search as it stands has no bound; one turn around the ports is enough for it, in every net that a course leads to, and so in
every net below a stack (`Stack.run_course`).

* `Net.Ephemeral`: the ports that are given to whoever asks for none in particular.
* `Net.Seeks`: the search without a bound, with the number of its rounds.
* `Net.allocPort_iff`: what is taken within one turn is what this search finds within as many rounds.
* `Net.seeks_of_free`: **one turn is enough**, if a port is free.
* `Net.Hands`: whoever asks for a port gets this one.
* `Net.course_ephemeral`: the next port is an ephemeral one, whatever happens.
* `Net.course_finds_port`: **so every search ends within one turn, and gives a free port.**
-/

namespace Conduit.Loopback.Net

variable {n n' n'' : Net} {i m k k' p p' q : Nat} {x : Happening}

/-! ## Ports in their round -/

/-- An ephemeral port. -/
structure Ephemeral (p : Nat) : Prop where
  first_le : 49152 ≤ p
  le_last : p ≤ 65535

theorem Ephemeral.after (h : Ephemeral p) : Ephemeral (portAfter p) := by
  have := h.first_le
  have := h.le_last
  unfold portAfter firstPort
  split <;> constructor <;> omega

/-- The ports follow each other in a ring. -/
theorem Ephemeral.iterate (h : Ephemeral p) (j : Nat) :
    portAfter^[j] p = 49152 + (p - 49152 + j) % 16384 := by
  have := h.first_le
  have := h.le_last
  induction j with
  | zero =>
    rw [Function.iterate_zero_apply]
    omega
  | succ j ih =>
    rw [Function.iterate_succ_apply', ih]
    unfold portAfter firstPort
    split <;> omega

/-- Each of them comes up within one turn. -/
theorem Ephemeral.comes (hp : Ephemeral p) (hq : Ephemeral q) : ∃ j, j < portCount ∧ portAfter^[j] p = q := by
  refine ⟨(q + 16384 - p) % 16384, Nat.mod_lt _ (by decide), ?_⟩
  have := hp.first_le
  have := hp.le_last
  have := hq.first_le
  have := hq.le_last
  rw [hp.iterate]
  omega

/-! ## The search without a bound -/

/-- A round of the search is over: the port after the one that was tried is the next. -/
def turned (n : Net) : Net := { n with nextPort := portAfter n.nextPort }

/-- The search for a port: in `k` rounds it finds `p`, and leaves `n'`. Nothing bounds the number of rounds. -/
inductive Seeks : (n : Net) → (k p : Nat) → (n' : Net) → Prop
  | finds {n : Net} (h : n.listener? n.nextPort = none) : Seeks n 1 n.nextPort n.turned
  | passes {n n' : Net} {k p : Nat} (h : (n.listener? n.nextPort).isSome) (hs : Seeks n.turned k p n') :
      Seeks n (k + 1) p n'

/-- There is one way to search only. -/
theorem Seeks.unique (h : n.Seeks k p n') (h' : n.Seeks k' p' n'') : k = k' ∧ p = p' ∧ n' = n'' := by
  induction h generalizing k' with
  | finds hfree =>
    cases h' with
    | finds => exact ⟨rfl, rfl, rfl⟩
    | passes hheld =>
      rw [hfree] at hheld
      cases hheld
  | passes hheld _ ih =>
    cases h' with
    | finds hfree =>
      rw [hfree] at hheld
      cases hheld
    | passes _ hs =>
      obtain ⟨rfl, rfl, rfl⟩ := ih hs
      exact ⟨rfl, rfl, rfl⟩

/-- Nobody listens on the port that is found, and nothing is changed but the next port, which is the one after it. -/
theorem Seeks.found (h : n.Seeks k p n') : n.listener? p = none ∧ n' = { n with nextPort := portAfter p } := by
  induction h with
  | finds hfree => exact ⟨hfree, rfl⟩
  | passes _ _ ih => exact ih

theorem Seeks.ephemeral (h : n.Seeks k p n') (hn : Ephemeral n.nextPort) : Ephemeral p := by
  induction h with
  | finds => exact hn
  | passes _ _ ih => exact ih hn.after

/-- A search ends with the first free port that comes up, or before. -/
theorem seeks_of_iterate {j : Nat} (h : n.listener? (portAfter^[j] n.nextPort) = none) :
    ∃ k p n', k ≤ j + 1 ∧ n.Seeks k p n' := by
  -- by induction on how far away the free port is
  induction j generalizing n with
  | zero => exact ⟨1, _, _, Nat.le_refl 1, .finds h⟩
  | succ j ih =>
    cases hl : n.listener? n.nextPort with
    | none => exact ⟨1, _, _, Nat.le_add_left 1 (j + 1), .finds hl⟩
    | some l =>
      obtain ⟨k, p, n', hk, hs⟩ := ih (n := n.turned) h
      exact ⟨k + 1, p, n', Nat.succ_le_succ hk, .passes (by rw [hl]; rfl) hs⟩

/-- **One turn is enough**, if a port is free. -/
theorem seeks_of_free (hn : Ephemeral n.nextPort) (hq : Ephemeral q) (h : n.listener? q = none) :
    ∃ k p n', k ≤ portCount ∧ n.Seeks k p n' := by
  obtain ⟨j, hj, rfl⟩ := hn.comes hq
  obtain ⟨k, p, n', hk, hs⟩ := seeks_of_iterate h
  exact ⟨k, p, n', Nat.le_trans hk hj, hs⟩

/-! ## The search within one turn -/

/-- So many tries find what the search finds within as many rounds. -/
theorem seekPort_iff : seekPort (fun q => (n.listener? q).isSome) m n.nextPort = some p ∧
    n' = { n with nextPort := portAfter p } ↔ ∃ k, k ≤ m ∧ n.Seeks k p n' := by
  -- by induction on the tries: each of them is a round of the search
  induction m generalizing n with
  | zero =>
    refine ⟨nofun, fun ⟨k, hk, hs⟩ => ?_⟩
    cases hs <;> cases hk
  | succ m ih =>
    unfold seekPort
    cases hl : n.listener? n.nextPort with
    | none =>
      constructor
      · rintro ⟨h, rfl⟩
        cases h
        exact ⟨1, Nat.le_add_left 1 m, .finds hl⟩
      · rintro ⟨k, -, hs⟩
        cases hs with
        | finds => exact ⟨rfl, rfl⟩
        | passes hheld =>
          rw [hl] at hheld
          cases hheld
    | some l =>
      refine (ih (n := n.turned)).trans ⟨fun ⟨k, hk, hs⟩ => ?_, fun ⟨k, hk, hs⟩ => ?_⟩
      · exact ⟨k + 1, Nat.succ_le_succ hk, .passes (by rw [hl]; rfl) hs⟩
      · cases hs with
        | finds hfree =>
          rw [hl] at hfree
          cases hfree
        | passes _ hs => exact ⟨_, Nat.le_of_succ_le_succ hk, hs⟩

theorem allocPort_iff : n.allocPort = .ok (p, n') ↔ ∃ k, k ≤ portCount ∧ n.Seeks k p n' := by
  rw [← seekPort_iff]
  unfold allocPort
  cases seekPort (fun q => (n.listener? q).isSome) portCount n.nextPort with
  | none => exact ⟨nofun, nofun⟩
  | some q =>
    refine ⟨fun h => ?_, ?_⟩
    · cases h
      exact ⟨rfl, rfl⟩
    · rintro ⟨h, rfl⟩
      cases h
      rfl

/-- There is no port to take where the search would never end, and nowhere else. -/
theorem allocPort_error_iff (hn : Ephemeral n.nextPort) :
    n.allocPort = .error .noFreePort ↔ ∀ k p n', ¬ n.Seeks k p n' := by
  refine ⟨fun h k p n' hs => ?_, fun h => ?_⟩
  · obtain ⟨k', p', n'', hk, hs'⟩ := seeks_of_free hn (hs.ephemeral hn) hs.found.1
    rw [allocPort_iff.2 ⟨k', hk, hs'⟩] at h
    cases h
  · unfold allocPort
    cases hp : seekPort (fun q => (n.listener? q).isSome) portCount n.nextPort with
    | none => rfl
    | some p =>
      obtain ⟨k, -, hs⟩ := seekPort_iff.1 ⟨hp, rfl⟩
      exact absurd hs (h k p _)

/-! ## Who asks for a port -/

/-- Whoever asks for a port gets `p`, and the search goes on behind it: a bind to port 0, and an open or a listen of an
endpoint without an address. -/
structure Hands (n : Net) (p : Nat) : Prop where
  bind : ∀ i addr, i < n.pcbs.size → addr.port = 0 → ∃ res, n.perform i (.bind addr) = .ok res ∧ res.value = .ok () ∧
    (res.net.pcb i).localAddr = some { ip := addr.ip, port := p } ∧ res.net.nextPort = portAfter p
  connect : ∀ i addr, i < n.pcbs.size → (n.pcb i).localAddr = none → (n.pcb i).state = .closed → (n.pcb i).peer = none →
    ∃ res, n.perform i (.connect addr) = .ok res ∧ res.value = .ok () ∧
      (res.net.pcb i).localAddr = some { ip := .loopback, port := p } ∧ res.net.nextPort = portAfter p
  listen : ∀ i backlog, i < n.pcbs.size → (n.pcb i).localAddr = none →
    ∃ res, n.perform i (.listen backlog) = .ok res ∧ res.value = .ok () ∧
      (res.net.pcb i).localAddr = some { ip := .loopback, port := p } ∧ res.net.nextPort = portAfter p ∧
      res.net.listener? p = some i

/-- An endpoint that was given an address. -/
def located (n : Net) (i : Nat) (addr : Endpoint) : Net := n.update i fun r => { r with localAddr := some addr }

theorem ensureLocal_of_allocPort (ha : n.allocPort = .ok (p, n')) (hl : (n.pcb i).localAddr = none) :
    n.ensureLocal i = .ok ({ ip := .loopback, port := p }, n'.located i { ip := .loopback, port := p }) := by
  unfold ensureLocal
  rw [hl, ha]
  rfl

theorem localAddr_located {addr : Endpoint} (hi : i < n.pcbs.size) : ((n.located i addr).pcb i).localAddr = some addr := by
  unfold located
  rw [pcb_update_self hi]

theorem bind_of_allocPort {addr : Endpoint} (ha : n.allocPort = .ok (p, n')) (hz : addr.port = 0) :
    n.bind i addr = .ok ⟨n'.located i { ip := addr.ip, port := p }, [], .ok ()⟩ := by
  unfold bind
  rw [if_pos hz, ha]
  rfl

/-- An endpoint that listens on the port that was found. -/
theorem listen_of_allocPort (ha : n.allocPort = .ok (p, n')) (hl : (n.pcb i).localAddr = none)
    (hfree : n'.listener? p = none) :
    n.listen i = .ok ⟨({ n'.located i { ip := .loopback, port := p } with listeners := (p, i) :: n'.listeners } : Net).update i
      fun r => { r with state := .listen }, [], .ok ()⟩ := by
  have hopen : ((n'.located i { ip := .loopback, port := p }).listener? p).isSome = false := by
    show (n'.listener? p).isSome = false
    rw [hfree]
    rfl
  unfold listen
  rw [ensureLocal_of_allocPort ha hl]
  show (if ((n'.located i { ip := .loopback, port := p }).listener? p).isSome then _ else _) = _
  rw [hopen]
  rfl

/-- An endpoint that opens a connection, whether anybody listens at the other end or not. -/
theorem connect_of_allocPort {addr : Endpoint} (ha : n.allocPort = .ok (p, n')) (hl : (n.pcb i).localAddr = none)
    (hs : (n.pcb i).state = .closed) (hp : (n.pcb i).peer = none) (hi : i < n'.pcbs.size) :
    ∃ res, n.connect i addr = .ok res ∧ res.value = .ok () ∧
      (res.net.pcb i).localAddr = some { ip := .loopback, port := p } ∧ res.net.nextPort = n'.nextPort := by
  unfold connect
  rw [if_neg (by simp [hs, hp]), ensureLocal_of_allocPort ha hl]
  dsimp only [Bind.bind, Except.bind]
  generalize hm : (n'.located i { ip := .loopback, port := p }).update i
    (fun r => { r with remoteAddr := some addr, state := .synSent }) = m
  have hsize : i < m.pcbs.size := by
    rw [← hm, size_update]
    simpa [located] using hi
  have hlocal : (m.pcb i).localAddr = some { ip := .loopback, port := p } := by
    rw [← hm, pcb_update_self (by simpa [located] using hi)]
    exact localAddr_located hi
  have hnext : m.nextPort = n'.nextPort := by
    rw [← hm]
    rfl
  split
  · exact ⟨_, rfl, rfl, hlocal, hnext⟩
  · refine ⟨_, rfl, rfl, ?_, hnext⟩
    -- the new endpoint comes after all others
    rw [pcb_pend, pcb_pend, pcb_update_self (by simp [add]; omega), pcb_add, if_neg (Nat.ne_of_lt hsize)]
    exact hlocal

theorem hands_of_allocPort (ha : n.allocPort = .ok (p, n')) : n.Hands p := by
  obtain ⟨k, -, hs⟩ := allocPort_iff.1 ha
  obtain ⟨hfree, rfl⟩ := hs.found
  refine ⟨fun i addr hi hz => ?_, fun i addr hi hl hs hp => ?_, fun i backlog hi hl => ?_⟩
  · exact ⟨_, bind_of_allocPort ha hz, rfl, localAddr_located hi, rfl⟩
  · exact connect_of_allocPort ha hl hs hp hi
  · refine ⟨_, listen_of_allocPort ha hl hfree, rfl, ?_, rfl, ?_⟩
    · rw [pcb_update_self (by simpa [located] using hi)]
      exact localAddr_located hi
    · exact List.lookup_cons_self

/-! ## The next port -/

theorem allocPort_ephemeral (ha : n.allocPort = .ok (p, n')) (hn : Ephemeral n.nextPort) : Ephemeral n'.nextPort := by
  obtain ⟨k, -, hs⟩ := allocPort_iff.1 ha
  rw [hs.found.2]
  exact (hs.ephemeral hn).after

theorem ensureLocal_ephemeral {addr : Endpoint} (h : n.ensureLocal m = .ok (addr, n')) (hn : Ephemeral n.nextPort) :
    Ephemeral n'.nextPort := by
  unfold ensureLocal at h
  split at h
  · cases h
    exact hn
  · cases ha : n.allocPort with
    | error => rw [ha] at h; cases h
    | ok r =>
      have hnext : Ephemeral r.2.nextPort := allocPort_ephemeral ha hn
      rw [ha] at h
      cases h
      exact hnext

theorem bind_ephemeral {addr : Endpoint} {res : Result Outcome} (h : n.bind m addr = .ok res)
    (hn : Ephemeral n.nextPort) : Ephemeral res.net.nextPort := by
  unfold bind at h
  split at h
  · cases ha : n.allocPort with
    | error => rw [ha] at h; cases h
    | ok r =>
      have hnext : Ephemeral r.2.nextPort := allocPort_ephemeral ha hn
      rw [ha] at h
      cases h
      exact hnext
  · split at h <;> cases h <;> exact hn

theorem listen_ephemeral {res : Result Outcome} (h : n.listen m = .ok res) (hn : Ephemeral n.nextPort) :
    Ephemeral res.net.nextPort := by
  unfold listen at h
  cases hl : n.ensureLocal m with
  | error => rw [hl] at h; cases h
  | ok r =>
    have hlocal := ensureLocal_ephemeral hl hn
    rw [hl] at h
    change (if _ then _ else _) = _ at h
    split at h <;> cases h <;> exact hlocal

theorem connect_ephemeral {addr : Endpoint} {res : Result Outcome} (h : n.connect m addr = .ok res)
    (hn : Ephemeral n.nextPort) : Ephemeral res.net.nextPort := by
  unfold connect at h
  split at h
  · cases h
    exact hn
  · cases hl : n.ensureLocal m with
    | error => rw [hl] at h; cases h
    | ok r =>
      have hlocal := ensureLocal_ephemeral hl hn
      rw [hl] at h
      dsimp only [Bind.bind, Except.bind] at h
      split at h <;> cases h <;> exact hlocal

@[simp] theorem nextPort_release (n : Net) (m : Nat) : (n.release m).nextPort = n.nextPort := by
  obtain ⟨ls, hr⟩ := n.release_eq m
  rw [hr]
  rfl

@[simp] theorem nextPort_abort (n : Net) (m : Nat) : (n.abort m).nextPort = n.nextPort := by
  unfold abort resetPeer
  rw [nextPort_release]
  split
  · split <;> rfl
  · rfl

theorem nextPort_write (n : Net) (m : Nat) (data : Bytes) : (n.write m data).1.nextPort = n.nextPort := by
  unfold write
  simp only
  split
  · rfl
  · split
    · rfl
    · split <;> rfl

theorem nextPort_close (n : Net) (m : Nat) : (n.close m).1.nextPort = n.nextPort := by
  unfold close
  simp only
  split
  · rfl
  · cases (n.pcb m).state with
    | closed | listen | synSent => exact nextPort_abort _ m
    | _ => rfl

theorem nextPort_shutdown (n : Net) (m : Nat) (dir : Direction) : (n.shutdown m dir).1.nextPort = n.nextPort := by
  have hread : (if dir = .write then n else n.update m fun p => { p with rxClosed := true }).nextPort = n.nextPort := by
    split <;> rfl
  unfold shutdown
  simp only
  generalize (if dir = .write then n else n.update m fun p => { p with rxClosed := true }) = n₁ at hread
  split
  · exact hread
  · split <;> exact hread

/-- No operation lets the next port leave its range. -/
theorem perform_ephemeral {o : PcbOp} {res : Result o.Reply} (h : n.perform m o = .ok res) (hn : Ephemeral n.nextPort) :
    Ephemeral res.net.nextPort := by
  cases o with
  | bind => exact bind_ephemeral h hn
  | connect => exact connect_ephemeral h hn
  | listen => exact listen_ephemeral h hn
  | write data =>
    cases h
    exact (nextPort_write n m data).symm ▸ hn
  | recved k =>
    change (n.recved m k).map _ = _ at h
    unfold recved at h
    split at h <;> cases h
    exact hn
  | close =>
    cases h
    exact (nextPort_close n m).symm ▸ hn
  | shutdown dir =>
    cases h
    exact (nextPort_shutdown n m dir).symm ▸ hn
  | abort =>
    cases h
    exact (nextPort_abort n m).symm ▸ hn
  | _ =>
    cases h
    exact hn

theorem nextPort_heed (n : Net) (i : Nat) (d : Delivery) : (n.heed i d).nextPort = n.nextPort := by
  unfold heed
  split
  · split
    · exact nextPort_abort n _
    · rfl
  · rfl
  · split <;> rfl
  · rfl
  · rfl

theorem nextPort_settle (n : Net) (a : Action) : (n.settle a).1.nextPort = n.nextPort := by
  cases a with
  | reset i => exact nextPort_release n i
  | _ => rfl

theorem nextPort_next {r : Result (Nat × Delivery)} (h : n.next = some r) : r.net.nextPort = n.nextPort := by
  cases next_stepped h with
  | @settles a rest ha => exact nextPort_settle { n with actions := rest } a
  | @segment i j r hn hp hs cursor =>
    obtain ⟨len, unread, hnet, -⟩ := sendSegment_posts hs
    show r.net.nextPort = n.nextPort
    rw [hnet]
    rfl
  | @goodbye i j hn hp cursor =>
    show (n.sendFin i j).net.nextPort = n.nextPort
    unfold sendFin
    dsimp only
    split <;> rfl

/-- **Whatever happens**, the next port is an ephemeral one. -/
theorem undergo_ephemeral (h : n.undergo x = .ok n') (hn : Ephemeral n.nextPort) : Ephemeral n'.nextPort := by
  cases x with
  | perform m o =>
    obtain ⟨res, hp, rfl⟩ := undergo_perform.1 h
    exact perform_ephemeral hp hn
  | step =>
    unfold undergo at h
    dsimp only at h
    split at h
    · cases h
      exact hn
    · rename_i res hres
      cases h
      rw [nextPort_heed, nextPort_next hres]
      exact hn
  | add | tick =>
    cases h
    exact hn
  | split id sizes | failCloses id count =>
    cases h
    show Ephemeral (n.updateOwned id _).1.nextPort
    unfold updateOwned
    split <;> exact hn

theorem course_ephemeral {o : Options} {hs : List Happening} (h : ({ options := o } : Net).course hs = .ok n) :
    Ephemeral n.nextPort :=
  course_keeps (P := fun n => Ephemeral n.nextPort) (fun _ _ _ hn hx => undergo_ephemeral hx hn)
    ⟨Nat.le_refl 49152, show 49152 ≤ 65535 by decide⟩ h

/-! ## Courses -/

/-- An endpoint that asks for one port after another is given them in turn, as long as nobody listens on them. -/
theorem course_binds {a : Endpoint} (hz : a.port = 0)
    (hfree : ∀ j, j < k → n.listener? (portAfter^[j] n.nextPort) = none) :
    ∃ n', n.course (List.replicate k (.perform i (.bind a))) = .ok n' ∧ n'.nextPort = portAfter^[k] n.nextPort ∧
      n'.listeners = n.listeners := by
  induction k generalizing n with
  | zero => exact ⟨n, rfl, rfl, rfl⟩
  | succ k ih =>
    have ha : n.allocPort = .ok (n.nextPort, n.turned) :=
      allocPort_iff.2 ⟨1, by decide, .finds (hfree 0 (Nat.succ_pos k))⟩
    have hbind : n.undergo (.perform i (.bind a)) =
        .ok (n.turned.located i { ip := a.ip, port := n.nextPort }) :=
      undergo_perform.2 ⟨_, bind_of_allocPort ha hz, rfl⟩
    obtain ⟨n', hc, hnext, hlisteners⟩ := ih (n := n.turned.located i { ip := a.ip, port := n.nextPort })
      fun j hj => hfree (j + 1) (Nat.succ_lt_succ hj)
    exact ⟨n', course_cons.2 ⟨_, hbind, hc⟩, hnext, hlisteners⟩

/-- **A free port is found within one turn**, in every net that a course leads to: if any ephemeral port is free, the search for
one ends within as many rounds as there are such ports, the last of them followed by the first. It finds one on which nobody
listens, changes nothing but the next port, which is an ephemeral one again, and whoever asks for a port gets this one. -/
theorem course_finds_port {o : Options} {hs : List Happening} (h : ({ options := o } : Net).course hs = .ok n)
    (hfree : ∃ q, Ephemeral q ∧ n.listener? q = none) :
    ∃ k p n', n.Seeks k p n' ∧ k ≤ 16384 ∧ n.allocPort = .ok (p, n') ∧ Ephemeral p ∧ n.listener? p = none ∧
      n' = { n with nextPort := portAfter p } ∧ Ephemeral n'.nextPort ∧ n.Hands p := by
  have hn := course_ephemeral h
  obtain ⟨q, hq, hopen⟩ := hfree
  obtain ⟨k, p, n', hk, hs⟩ := seeks_of_free hn hq hopen
  have ha : n.allocPort = .ok (p, n') := allocPort_iff.2 ⟨k, hk, hs⟩
  have hp := hs.ephemeral hn
  exact ⟨k, p, n', hs, hk, ha, hp, hs.found.1, hs.found.2, allocPort_ephemeral ha hn, hands_of_allocPort ha⟩

/-- Somebody listens on the last port. -/
def lastHeld : List Happening :=
  [.add, .perform 0 (.bind { ip := .loopback, port := 65535 }), .perform 0 (.listen 1), .add]

/-- All others are asked for then. -/
def othersAsked : List Happening := List.replicate 16383 (.perform 1 (.bind { ip := .loopback, port := 0 }))

/-- What comes of it: the last port is the next. -/
theorem lastHeld_next : ∃ n, ({} : Net).course (lastHeld ++ othersAsked) = .ok n ∧ n.nextPort = 65535 ∧
    n.listeners = [(65535, 0)] := by
  have hheld : (({} : Net).course lastHeld).toOption.map (fun n => (n.nextPort, n.listeners)) =
      some (49152, [(65535, 0)]) := by
    decide +kernel
  cases h : ({} : Net).course lastHeld with
  | error e => simp [h, Except.toOption] at hheld
  | ok n₀ =>
    obtain ⟨hnext₀, hlisteners₀⟩ : n₀.nextPort = 49152 ∧ n₀.listeners = [(65535, 0)] := by
      simpa [h, Except.toOption] using hheld
    have hring : ∀ j, portAfter^[j] n₀.nextPort = 49152 + j % 16384 := fun j => by
      rw [hnext₀, Ephemeral.iterate ⟨Nat.le_refl _, by decide⟩, Nat.sub_self, Nat.zero_add]
    obtain ⟨n, hc, hnext, hlisteners⟩ := course_binds (n := n₀) (i := 1) (k := 16383)
      (a := { ip := .loopback, port := 0 }) rfl fun j hj => by
        have hne : 49152 + j % 16384 ≠ 65535 := by omega
        rw [hring, listener?, hlisteners₀, List.lookup_cons, beq_eq_false_iff_ne.2 hne]
        rfl
    refine ⟨n, course_append h hc, ?_, hlisteners.trans hlisteners₀⟩
    rw [hnext, hring]

/-- It takes two rounds then, and finds the first port of all. -/
theorem course_finds_port_around : ∃ n n', ({} : Net).course (lastHeld ++ othersAsked) = .ok n ∧ n.nextPort = 65535 ∧
    n.listener? 65535 = some 0 ∧ n.Seeks 2 49152 n' ∧ n.allocPort = .ok (49152, n') ∧ n'.nextPort = 49153 ∧ n.Hands 49152 := by
  obtain ⟨n, hc, hnext, hlisteners⟩ := lastHeld_next
  have hfirst : n.listener? 49152 = none := by
    rw [listener?, hlisteners]
    rfl
  have hlast : n.listener? 65535 = some 0 := by
    rw [listener?, hlisteners]
    rfl
  obtain ⟨k, p, n', hs, -, ha, -, -, -, -, hhands⟩ :=
    course_finds_port hc ⟨49152, ⟨Nat.le_refl _, by decide⟩, hfirst⟩
  have hturned : n.turned.nextPort = 49152 := by
    unfold turned
    rw [hnext]
    rfl
  have hfinds : n.turned.Seeks 1 n.turned.nextPort n.turned.turned := .finds (by rw [hturned]; exact hfirst)
  have htwo : n.Seeks 2 n.turned.nextPort n.turned.turned := .passes (by rw [hnext, hlast]; rfl) hfinds
  rw [hturned] at htwo
  obtain ⟨rfl, rfl, rfl⟩ := hs.unique htwo
  refine ⟨n, _, hc, hnext, hlast, hs, ha, ?_, hhands⟩
  show portAfter n.turned.nextPort = 49153
  rw [hturned]
  rfl

end Conduit.Loopback.Net
