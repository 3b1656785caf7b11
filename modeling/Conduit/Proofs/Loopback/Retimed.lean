import Conduit.Proofs.Loopback.Closed
import Mathlib.Logic.Function.Basic

/-!
# Poll timers apart

How far the poll timer of an endpoint has come, at which interval it runs and how many of its next closes fail is nothing
that steps look at, or operations other than its closes. Nets that differ in nothing else bring the same to the same.

* `Timing`: what such nets differ in. `Net.retimed`: a net with other timings.
* `Net.timing_eq`: what is done alike over all timings changes none.
* `Net.perform_retimed`, `Net.next_retimed`: **operations and steps do the same, whatever the timings.**
-/

namespace Conduit.Loopback

/-- What concerns the closes and the polls of an endpoint. -/
structure Timing where
  closeFailures : Nat
  pollInterval : Nat
  pollElapsed : Nat

/-- Those of an endpoint. -/
def Pcb.timing (p : Pcb) : Timing := ⟨p.closeFailures, p.pollInterval, p.pollElapsed⟩

/-- The endpoint with another timing. -/
def Pcb.retimed (s : Timing) (p : Pcb) : Pcb :=
  { p with closeFailures := s.closeFailures, pollInterval := s.pollInterval, pollElapsed := s.pollElapsed }

/-- Whether an operation has nothing to do with timings. A connect has: whoever is accepted takes over the interval of the
listener. -/
def untimed : PcbOp → Bool
  | .connect _ | .close | .setPollInterval _ => false
  | _ => true

namespace Net

variable {n n₁ : Net} {j m : Nat} {s : Timing} {g : Nat → Timing}

/-- A net with other timings. -/
def retimed (n : Net) (g : Nat → Timing) : Net := { n with pcbs := n.pcbs.mapIdx fun j p => p.retimed (g j) }

/-- The same answer and the same notes over it. -/
def retime {α : Type} (g : Nat → Timing) (r : Result α) : Result α := { r with net := r.net.retimed g }

/-! ## Changes -/

@[simp] theorem retimed_options : (n.retimed g).options = n.options := rfl

@[simp] theorem retimed_size : (n.retimed g).pcbs.size = n.pcbs.size := Array.size_mapIdx

@[simp] theorem listener?_retimed (port : Nat) : (n.retimed g).listener? port = n.listener? port := rfl

theorem pcb_retimed (h : j < n.pcbs.size) : (n.retimed g).pcb j = (n.pcb j).retimed (g j) := by
  unfold retimed pcb
  simp only [Array.getD_eq_getD_getElem?, Array.getElem?_mapIdx, Array.getElem?_eq_getElem h, Option.map_some,
    Option.getD_some]

/-- What an endpoint of the other net is. -/
theorem exists_pcb_retimed (n : Net) (g : Nat → Timing) (j : Nat) : ∃ s, (n.retimed g).pcb j = (n.pcb j).retimed s := by
  rcases Nat.lt_or_ge j n.pcbs.size with h | h
  · exact ⟨g j, pcb_retimed h⟩
  · refine ⟨(n.pcb j).timing, ?_⟩
    rw [pcb_of_size_le h, pcb_of_size_le (by simpa using h)]
    rfl

/-- With its own timings a net is what it was. -/
theorem retimed_self (n : Net) : n.retimed (fun j => (n.pcb j).timing) = n := by
  refine ext_pcb rfl retimed_size (fun j => ?_) rfl rfl rfl rfl
  rcases Nat.lt_or_ge j n.pcbs.size with h | h
  · exact pcb_retimed h
  · rw [pcb_of_size_le h, pcb_of_size_le (by simpa using h)]

/-- What can be done over other timings as well leaves them as they are. -/
theorem timing_eq (h : n₁.retimed (fun j => (n.pcb j).timing) = n₁) (hj : j < n₁.pcbs.size) :
    (n₁.pcb j).timing = (n.pcb j).timing := by
  rw [← h, pcb_retimed hj]
  rfl

/-- Nets of one size have the same timings over `g`. -/
theorem retimed_timing (h : n₁.pcbs.size = n.pcbs.size) : ((n₁.retimed g).pcb j).timing = ((n.retimed g).pcb j).timing := by
  rcases Nat.lt_or_ge j n.pcbs.size with hlt | hge
  · rw [pcb_retimed hlt, pcb_retimed (h ▸ hlt)]
    rfl
  · rw [pcb_of_size_le (by rwa [retimed_size, h]), pcb_of_size_le (by rwa [retimed_size])]

/-- A change of an endpoint, and of its timing. -/
theorem update_retimed_to (n : Net) (g : Nat → Timing) (m : Nat) (f : Pcb → Pcb) (s : Timing)
    (h : f ((n.pcb m).retimed (g m)) = (f (n.pcb m)).retimed s) :
    (n.retimed g).update m f = (n.update m f).retimed (Function.update g m s) := by
  refine ext_pcb rfl (by simp) (fun j => ?_) rfl rfl rfl rfl
  rcases Nat.lt_or_ge j n.pcbs.size with hlt | hge
  · rw [pcb_retimed (by simpa using hlt)]
    by_cases hj : j = m
    · subst hj
      rw [pcb_update_self (by simpa using hlt), pcb_update_self hlt, pcb_retimed hlt, h, Function.update_self]
    · rw [pcb_update_of_ne hj, pcb_update_of_ne hj, pcb_retimed hlt, Function.update_of_ne hj]
  · rw [pcb_of_size_le (by simpa using hge), pcb_of_size_le (by simpa using hge)]

/-- A change that does not look at the timing. -/
theorem update_retimed (n : Net) (g : Nat → Timing) (m : Nat) (f : Pcb → Pcb)
    (h : ∀ p s, f (p.retimed s) = (f p).retimed s) : (n.retimed g).update m f = (n.update m f).retimed g := by
  have hchange := update_retimed_to n g m f (g m) (h _ _)
  rwa [Function.update_eq_self] at hchange

theorem add_retimed (n : Net) (g : Nat → Timing) (p : Pcb) (s : Timing) :
    ((n.retimed g).add (p.retimed s)).2 = (n.add p).2.retimed (Function.update g n.pcbs.size s) := by
  refine ext_pcb rfl (by simp [add]) (fun j => ?_) rfl rfl rfl rfl
  have hsize : (n.add p).2.pcbs.size = n.pcbs.size + 1 := by simp [add]
  rcases Nat.lt_or_ge j (n.pcbs.size + 1) with hlt | hge
  · rw [pcb_retimed (by omega), pcb_add, pcb_add, retimed_size]
    by_cases hj : j = n.pcbs.size
    · rw [if_pos hj, if_pos hj, hj, Function.update_self]
    · rw [if_neg hj, if_neg hj, Function.update_of_ne hj, pcb_retimed (by omega)]
  · have hge' : ((n.retimed g).add (p.retimed s)).2.pcbs.size ≤ j := by simpa [add] using hge
    rw [pcb_of_size_le hge', pcb_of_size_le (by simpa [hsize] using hge)]

/-- What is not a matter of timing is the same. -/
theorem retimed_field {α : Type} (f : Pcb → α) (hf : ∀ p s, f (p.retimed s) = f p) :
    f ((n.retimed g).pcb m) = f (n.pcb m) := by
  obtain ⟨s, h⟩ := n.exists_pcb_retimed g m
  rw [h, hf]

@[simp] theorem retimed_owner : ((n.retimed g).pcb m).owner = (n.pcb m).owner :=
  retimed_field Pcb.owner fun _ _ => rfl

@[simp] theorem retimed_state : ((n.retimed g).pcb m).state = (n.pcb m).state :=
  retimed_field Pcb.state fun _ _ => rfl

@[simp] theorem retimed_localAddr : ((n.retimed g).pcb m).localAddr = (n.pcb m).localAddr :=
  retimed_field Pcb.localAddr fun _ _ => rfl

@[simp] theorem retimed_peer : ((n.retimed g).pcb m).peer = (n.pcb m).peer :=
  retimed_field Pcb.peer fun _ _ => rfl

@[simp] theorem retimed_rxClosed : ((n.retimed g).pcb m).rxClosed = (n.pcb m).rxClosed :=
  retimed_field Pcb.rxClosed fun _ _ => rfl

@[simp] theorem retimed_unsent : ((n.retimed g).pcb m).unsent = (n.pcb m).unsent :=
  retimed_field Pcb.unsent fun _ _ => rfl

@[simp] theorem retimed_finQueued : ((n.retimed g).pcb m).finQueued = (n.pcb m).finQueued :=
  retimed_field Pcb.finQueued fun _ _ => rfl

@[simp] theorem retimed_finSent : ((n.retimed g).pcb m).finSent = (n.pcb m).finSent :=
  retimed_field Pcb.finSent fun _ _ => rfl

/-! ## Operations -/

theorem release_retimed (n : Net) (g : Nat → Timing) (m : Nat) : (n.retimed g).release m = (n.release m).retimed g := by
  have hends := update_retimed n g m Pcb.released fun _ _ => rfl
  unfold Pcb.released at hends
  unfold release
  dsimp only
  rw [hends, retimed_localAddr]
  split
  · rw [listener?_retimed]
    split <;> rfl
  · rfl

theorem abort_retimed (n : Net) (g : Nat → Timing) (m : Nat) : (n.retimed g).abort m = (n.abort m).retimed g := by
  unfold abort resetPeer
  rw [retimed_peer]
  split
  · rw [retimed_state]
    split
    · exact release_retimed (n.pend _) g m
    · exact release_retimed n g m
  · exact release_retimed n g m

theorem allocPort_retimed (n : Net) (g : Nat → Timing) :
    (n.retimed g).allocPort = n.allocPort.map fun r => (r.1, r.2.retimed g) := by
  have hseek : seekPort (fun p => ((n.retimed g).listener? p).isSome) portCount (n.retimed g).nextPort =
      seekPort (fun p => (n.listener? p).isSome) portCount n.nextPort := rfl
  unfold allocPort
  rw [hseek]
  cases seekPort (fun p => (n.listener? p).isSome) portCount n.nextPort <;> rfl

theorem ensureLocal_retimed (n : Net) (g : Nat → Timing) (m : Nat) :
    (n.retimed g).ensureLocal m = (n.ensureLocal m).map fun r => (r.1, r.2.retimed g) := by
  unfold ensureLocal
  rw [retimed_localAddr]
  split
  · rfl
  · rw [allocPort_retimed]
    cases n.allocPort with
    | error e => rfl
    | ok r =>
      have hlocal := update_retimed r.2 g m (fun p => { p with localAddr := some { ip := .loopback, port := r.1 } })
        fun _ _ => rfl
      exact congrArg (fun n' => Except.ok (({ ip := .loopback, port := r.1 } : Endpoint), n')) hlocal

/-- So no timing changes by it. -/
theorem ensureLocal_self {r : Endpoint × Net} (h : n.ensureLocal m = .ok r) :
    r.2.retimed (fun j => (n.pcb j).timing) = r.2 := by
  have hlocal := ensureLocal_retimed n (fun j => (n.pcb j).timing) m
  rw [retimed_self, h] at hlocal
  exact (congrArg Prod.snd (Except.ok.inj hlocal)).symm

theorem bind_retimed (n : Net) (g : Nat → Timing) (m : Nat) (addr : Endpoint) :
    (n.retimed g).bind m addr = (n.bind m addr).map (retime g) := by
  unfold bind
  split
  · rw [allocPort_retimed]
    cases n.allocPort with
    | error e => rfl
    | ok r =>
      have hlocal := update_retimed r.2 g m (fun p => { p with localAddr := some { ip := addr.ip, port := r.1 } })
        fun _ _ => rfl
      exact congrArg (fun n' => Except.ok (⟨n', [], .ok ()⟩ : Result Outcome)) hlocal
  · rw [listener?_retimed]
    split
    · rfl
    · have hlocal := update_retimed n g m (fun p => { p with localAddr := some addr }) fun _ _ => rfl
      exact congrArg (fun n' => Except.ok (⟨n', [], .ok ()⟩ : Result Outcome)) hlocal

theorem listen_retimed (n : Net) (g : Nat → Timing) (m : Nat) : (n.retimed g).listen m = (n.listen m).map (retime g) := by
  unfold listen
  rw [ensureLocal_retimed]
  cases n.ensureLocal m with
  | error e => rfl
  | ok r =>
    dsimp only [Bind.bind, Except.bind, Except.map]
    rw [listener?_retimed]
    split
    · rfl
    · have hlistens := update_retimed { r.2 with listeners := (r.1.port, m) :: r.2.listeners } g m
        (fun p => { p with state := .listen }) fun _ _ => rfl
      exact congrArg (fun n' => Except.ok (⟨n', [], .ok ()⟩ : Result Outcome)) hlistens

theorem write_retimed (n : Net) (g : Nat → Timing) (m : Nat) (data : Bytes) :
    (n.retimed g).write m data = ((n.write m data).1.retimed g, (n.write m data).2) := by
  obtain ⟨s, h⟩ := n.exists_pcb_retimed g m
  unfold write
  rw [h, retimed_options]
  dsimp only [Pcb.retimed]
  split
  · rfl
  · split
    · rfl
    · split
      · rfl
      · exact congrArg (fun n' => (n', Except.ok ())) (update_retimed n g m _ fun _ _ => rfl)

theorem recved_retimed (n : Net) (g : Nat → Timing) (m k : Nat) :
    (n.retimed g).recved m k = (n.recved m k).map fun n => n.retimed g := by
  obtain ⟨s, h⟩ := n.exists_pcb_retimed g m
  have hacks := update_retimed n g m (fun p => { p with acked := min (p.acked + k) p.received }) fun _ _ => rfl
  unfold recved
  rw [h]
  show (if wordBound ≤ (n.pcb m).acked + k then _ else _) = _
  by_cases hword : wordBound ≤ (n.pcb m).acked + k
  · rw [if_pos hword, if_pos hword]
    rfl
  · rw [if_neg hword, if_neg hword]
    exact congrArg Except.ok hacks

theorem shutdown_retimed (n : Net) (g : Nat → Timing) (m : Nat) (dir : Direction) :
    (n.retimed g).shutdown m dir = ((n.shutdown m dir).1.retimed g, (n.shutdown m dir).2) := by
  have hread := update_retimed n g m (fun p => { p with rxClosed := true }) fun _ _ => rfl
  have hhalf : (if dir = .write then n.retimed g else (n.retimed g).update m fun p => { p with rxClosed := true }) =
      (if dir = .write then n else n.update m fun p => { p with rxClosed := true }).retimed g := by
    split
    · rfl
    · exact hread
  unfold shutdown
  simp only
  rw [hhalf, retimed_state]
  generalize (if dir = .write then n else n.update m fun p => { p with rxClosed := true }) = n₁
  split
  · rfl
  · split
    · exact congrArg (fun n' => (n', Except.ok ())) (update_retimed n₁ g m _ fun _ _ => rfl)
    · exact congrArg (fun n' => (n', Except.ok ())) (update_retimed n₁ g m _ fun _ _ => rfl)
    · rfl

/-- A close that does not fail. -/
theorem close_retimed (n : Net) (g : Nat → Timing) (h : (g m).closeFailures = (n.pcb m).closeFailures)
    (hfail : ¬ 0 < (n.pcb m).closeFailures) :
    (n.retimed g).close m = ((n.close m).1.retimed g, (n.close m).2) := by
  have hfailures : ((n.retimed g).pcb m).closeFailures = (n.pcb m).closeFailures := by
    rcases Nat.lt_or_ge m n.pcbs.size with hlt | hge
    · rw [pcb_retimed hlt]
      exact h
    · rw [pcb_of_size_le hge, pcb_of_size_le (by simpa using hge)]
  unfold close
  simp only
  rw [hfailures, if_neg hfail, if_neg hfail]
  rw [update_retimed n g m (fun p => { p with rxClosed := true }) fun _ _ => rfl, retimed_state]
  generalize (n.update m fun p => { p with rxClosed := true }) = n₁
  cases (n.pcb m).state with
  | established | synReceived | closeWait =>
    exact congrArg (fun n' => (n', Except.ok ())) (update_retimed n₁ g m _ fun _ _ => rfl)
  | finWait1 | finWait2 | closing | lastAck | timeWait => rfl
  | closed | listen | synSent => exact congrArg (fun n' => (n', Except.ok ())) (abort_retimed n₁ g m)

/-- A close that fails counts down, and does nothing else. -/
theorem close_of_failures (hfail : 0 < (n.pcb m).closeFailures) :
    n.close m = (n.update m fun p => { p with closeFailures := p.closeFailures - 1 }, .error .outOfMemory) := by
  unfold close
  simp only
  rw [if_pos hfail]

/-- Whoever is accepted polls at the interval of the listener; without a listener nobody is. -/
theorem connect_retimed (n : Net) (g : Nat → Timing) (m : Nat) (addr : Endpoint) :
    ((n.retimed g).connect m addr = (n.connect m addr).map (retime g) ∧
        ∀ r, n.connect m addr = .ok r → r.net.retimed (fun j => (n.pcb j).timing) = r.net) ∨
      ∃ l r, n.connect m addr = .ok r ∧ r.net.pcbs.size = n.pcbs.size + 1 ∧
        (∀ j < n.pcbs.size, (r.net.pcb j).timing = (n.pcb j).timing) ∧
        (r.net.pcb n.pcbs.size).timing = ⟨0, (n.pcb l).pollInterval, 0⟩ ∧
        (n.retimed g).connect m addr =
          .ok (retime (Function.update g n.pcbs.size ⟨0, ((n.retimed g).pcb l).pollInterval, 0⟩) r) := by
  unfold connect
  rw [retimed_state, retimed_peer]
  split
  · refine .inl ⟨rfl, ?_⟩
    rintro r ⟨⟩
    exact retimed_self n
  · rw [ensureLocal_retimed]
    cases hl : n.ensureLocal m with
    | error e => exact .inl ⟨rfl, nofun⟩
    | ok r =>
      obtain ⟨-, hsize, -, -⟩ := ensureLocal_ok hl
      have hopens := update_retimed r.2 g m (fun p => { p with remoteAddr := some addr, state := .synSent }) fun _ _ => rfl
      have hself : (r.2.update m fun p => { p with remoteAddr := some addr, state := .synSent }).retimed
          (fun j => (n.pcb j).timing) = r.2.update m fun p => { p with remoteAddr := some addr, state := .synSent } := by
        rw [← update_retimed r.2 (fun j => (n.pcb j).timing) m _ fun _ _ => rfl, ensureLocal_self hl]
      have hsize₁ : (r.2.update m fun p => { p with remoteAddr := some addr, state := .synSent }).pcbs.size = n.pcbs.size := by
        rw [size_update, hsize]
      dsimp only [Bind.bind, Except.bind, Except.map]
      rw [hopens, listener?_retimed]
      generalize (r.2.update m fun p => { p with remoteAddr := some addr, state := .synSent }) = n₁ at hself hsize₁
      cases n₁.listener? addr.port with
      | none =>
        refine .inl ⟨rfl, ?_⟩
        rintro r' ⟨⟩
        exact congrArg (fun n' => pend n' (.reset m)) hself
      | some l =>
        have htiming : ∀ j, (n₁.pcb j).timing = (n.pcb j).timing := by
          intro j
          rcases Nat.lt_or_ge j n₁.pcbs.size with hlt | hge
          · exact timing_eq hself hlt
          · rw [pcb_of_size_le hge, pcb_of_size_le (hsize₁ ▸ hge)]
        obtain ⟨s, hlistener⟩ := n₁.exists_pcb_retimed g l
        have hinterval : s.pollInterval = ((n.retimed g).pcb l).pollInterval := by
          have hread := congrArg Timing.pollInterval (retimed_timing (g := g) (j := l) hsize₁)
          rw [hlistener] at hread
          exact hread
        let p : Pcb := {
          state := .established
          localAddr := (n₁.pcb l).localAddr
          remoteAddr := some r.1
          peer := some m
          pollInterval := (n₁.pcb l).pollInterval }
        have hadd := add_retimed n₁ g p ⟨0, s.pollInterval, 0⟩
        have hjoins := update_retimed (n₁.add p).2 (Function.update g n₁.pcbs.size ⟨0, s.pollInterval, 0⟩) m
          (fun q => { q with peer := some n₁.pcbs.size }) fun _ _ => rfl
        have hold : ∀ j < n.pcbs.size, ((n₁.add p).2.pcb j).timing = (n.pcb j).timing := by
          intro j hj
          rw [pcb_add, if_neg (by omega), htiming]
        have hnew : ((n₁.add p).2.pcb n.pcbs.size).timing = ⟨0, (n.pcb l).pollInterval, 0⟩ := by
          have hl := congrArg Timing.pollInterval (htiming l)
          rw [← hsize₁, pcb_add, if_pos rfl]
          exact congrArg (fun k => Timing.mk 0 k 0) hl
        have hsize₂ : ((n₁.retimed g).add (p.retimed ⟨0, s.pollInterval, 0⟩)).1 = n₁.pcbs.size := retimed_size
        refine .inr ⟨l, _, rfl, ?_, fun j hj => ?_, ?_, ?_⟩
        · show ((n₁.add p).2.update m _).pcbs.size = _
          rw [size_update]
          simp [add, hsize₁]
        · exact pcb_update_elim (P := fun q => q.timing = _) (hold j hj) fun _ => hold j hj
        · exact pcb_update_elim (P := fun q => q.timing = _) hnew fun _ => hnew
        · dsimp only
          rw [hlistener, ← hinterval, ← hsize₁]
          show Except.ok (⟨((((n₁.retimed g).add (p.retimed ⟨0, s.pollInterval, 0⟩)).2.update m fun q =>
            { q with peer := some ((n₁.retimed g).add (p.retimed ⟨0, s.pollInterval, 0⟩)).1 }).pend (.connected m)).pend
            (.accept l ((n₁.retimed g).add (p.retimed ⟨0, s.pollInterval, 0⟩)).1), [.debug "loopback connection established"
              [("addr", addr.text), ("client", toString m),
                ("server", toString ((n₁.retimed g).add (p.retimed ⟨0, s.pollInterval, 0⟩)).1)]], .ok ()⟩ : Result Outcome) = _
          rw [hsize₂, hadd, hjoins]
          rfl

/-- An operation answers the same, whatever the timings, if it is about none. -/
theorem perform_retimed (n : Net) (g : Nat → Timing) (m : Nat) (o : PcbOp) (ho : untimed o = true) :
    (n.retimed g).perform m o = (n.perform m o).map (retime g) := by
  have hset : ∀ f : Pcb → Pcb, (∀ (p : Pcb) (s : Timing), f (p.retimed s) = (f p).retimed s) →
      (Except.ok ⟨(n.retimed g).update m f, [], ()⟩ : Except Halt (Result Unit)) =
        Except.map (retime g) (.ok ⟨n.update m f, [], ()⟩) := fun f hf =>
    congrArg (fun n' => Except.ok (⟨n', [], ()⟩ : Result Unit)) (update_retimed n g m f hf)
  obtain ⟨s, h⟩ := n.exists_pcb_retimed g m
  cases o with
  | bind addr => exact bind_retimed n g m addr
  | connect | close | setPollInterval => cases ho
  | listen => exact listen_retimed n g m
  | write data =>
    show Except.ok (⟨((n.retimed g).write m data).1, [], ((n.retimed g).write m data).2⟩ : Result Outcome) = _
    rw [write_retimed]
    rfl
  | output | mss => rfl
  | sndbuf | sndqueuelen | nagleDisabled | localAddr | remoteAddr | state =>
    unfold perform
    rw [h]
    rfl
  | recved k =>
    show ((n.retimed g).recved m k).map _ = ((n.recved m k).map _).map _
    rw [recved_retimed]
    cases n.recved m k <;> rfl
  | shutdown dir =>
    show Except.ok (⟨((n.retimed g).shutdown m dir).1, [], ((n.retimed g).shutdown m dir).2⟩ : Result Outcome) = _
    rw [shutdown_retimed]
    rfl
  | abort => exact congrArg (fun n' => Except.ok (⟨n', [], ()⟩ : Result Unit)) (abort_retimed n g m)
  | setNagle | setPrio | detach => exact hset _ fun _ _ => rfl
  | attach id =>
    refine hset _ fun p s => ?_
    show (if p.state ≠ .closed || p.peer.isNone then _ else _) = (if p.state ≠ .closed || p.peer.isNone then _ else _ : Pcb).retimed s
    split <;> rfl

/-! ## Steps -/

theorem post_retimed (n : Net) (g : Nat → Timing) (j k len : Nat) (unread : Bool) :
    (n.retimed g).post j k len unread = (n.post j k len unread).retimed g := by
  have hdeparts := update_retimed n g j
    (fun p => { p with splitPlan := planAfter len p.splitPlan, unsent := (p.unsent.read len).2 }) fun _ _ => rfl
  have hpending : ((n.retimed g).depart j len).pend (.sent j len) = ((n.depart j len).pend (.sent j len)).retimed g :=
    congrArg (fun n' => pend n' (.sent j len)) hdeparts
  unfold post
  rw [hpending]
  exact update_retimed _ g k _ fun _ _ => rfl

theorem sendSegment_retimed (n : Net) (g : Nat → Timing) (j k : Nat) :
    (n.retimed g).sendSegment j k = (n.sendSegment j k).map (retime g) := by
  obtain ⟨s, hj⟩ := n.exists_pcb_retimed g j
  obtain ⟨s', hk⟩ := n.exists_pcb_retimed g k
  have hroom : (n.retimed g).room ((n.retimed g).pcb j) ((n.retimed g).pcb k) = n.room (n.pcb j) (n.pcb k) := by
    rw [hj, hk]
    rfl
  have hread : ∀ len, ((n.retimed g).pcb j).unsent.read len = (n.pcb j).unsent.read len := by
    intro len
    rw [hj]
    rfl
  have hpost := n.post_retimed g j k
  unfold sendSegment
  dsimp only
  rw [hroom, hread, retimed_state, retimed_rxClosed]
  generalize n.room (n.pcb j) (n.pcb k) = len
  by_cases hlen : len = 0
  · rw [if_pos hlen, if_pos hlen]
    rfl
  · rw [if_neg hlen, if_neg hlen]
    cases (n.pcb k).state = .closed || (n.pcb k).rxClosed with
    | true => exact congrArg (fun n' => some (⟨n', _, _⟩ : Result (Nat × Delivery))) (hpost len true)
    | false => exact congrArg (fun n' => some (⟨n', _, _⟩ : Result (Nat × Delivery))) (hpost len false)

theorem sendFin_retimed (n : Net) (g : Nat → Timing) (j k : Nat) : (n.retimed g).sendFin j k = retime g (n.sendFin j k) := by
  have hspoken := update_retimed n g j (fun p => { p with
      finSent := true
      state := afterFinSent p.state
      owner := if afterFinSent p.state = .closed then none else p.owner }) fun _ _ => rfl
  unfold sendFin
  dsimp only
  rw [hspoken]
  generalize (n.update j fun p => { p with
      finSent := true
      state := afterFinSent p.state
      owner := if afterFinSent p.state = .closed then none else p.owner }) = n₁
  rw [update_retimed n₁ g k (fun p => { p with finReceived := true, state := afterFinReceived p.state }) fun _ _ => rfl,
    retimed_rxClosed, retimed_owner]
  split <;> rfl

theorem transmit_retimed (n : Net) (g : Nat → Timing) (j : Nat) :
    (n.retimed g).transmit j = (n.transmit j).map (retime g) := by
  unfold transmit
  rw [retimed_peer]
  cases (n.pcb j).peer with
  | none => rfl
  | some k =>
    dsimp only
    rw [retimed_state, retimed_unsent, retimed_finQueued, retimed_finSent]
    split
    · rfl
    · split
      · exact sendSegment_retimed n g j k
      · split
        · exact congrArg some (sendFin_retimed n g j k)
        · rfl

theorem transmitFrom_retimed (n : Net) (g : Nat → Timing) (k j : Nat) :
    (n.retimed g).transmitFrom k j = (n.transmitFrom k j).map (retime g) := by
  induction k generalizing j with
  | zero => rfl
  | succ k ih =>
    unfold transmitFrom
    rw [transmit_retimed, retimed_size]
    cases n.transmit j with
    | none => exact ih _
    | some r => rfl

theorem settle_retimed (n : Net) (g : Nat → Timing) (a : Action) :
    (n.retimed g).settle a = ((n.settle a).1.retimed g, (n.settle a).2) := by
  cases a with
  | connected k => exact congrArg (fun n' => (n', _)) (update_retimed n g k _ fun _ _ => rfl)
  | sent k len => rfl
  | accept listener new => rfl
  | reset k =>
    unfold settle
    dsimp only
    rw [retimed_owner, retimed_state, release_retimed]
    exact congrArg (fun n' => (n', _)) (update_retimed (n.release k) g k _ fun _ _ => rfl)

/-- A step brings the same to the same. -/
theorem next_retimed (n : Net) (g : Nat → Timing) : (n.retimed g).next = n.next.map (retime g) := by
  have hactions : (n.retimed g).actions = n.actions := rfl
  unfold next
  rw [hactions]
  cases n.actions with
  | cons a rest =>
    have h := settle_retimed { n with actions := rest } g a
    exact congrArg (fun x => some (⟨x.1, [], x.2⟩ : Result (Nat × Delivery))) h
  | nil =>
    dsimp only
    rw [retimed_size]
    exact transmitFrom_retimed n g _ _

theorem heed_retimed (n : Net) (g : Nat → Timing) (k : Nat) (d : Delivery) : (n.retimed g).heed k d = (n.heed k d).retimed g := by
  cases d with
  | accept new =>
    unfold heed
    dsimp only
    rw [retimed_owner]
    split
    · exact abort_retimed n g new
    · rfl
  | reset => exact update_retimed n g k _ fun _ _ => rfl
  | nothing => rfl
  | event e =>
    cases e with
    | recv data =>
      unfold heed
      dsimp only
      rw [retimed_owner]
      split
      · exact update_retimed n g k _ fun _ _ => rfl
      · rfl
    | _ => rfl

theorem owned?_retimed (n : Net) (g : Nat → Timing) (id : Handle) : (n.retimed g).owned? id = n.owned? id := by
  have howned : ∀ n : Net, n.owned? id = (n.pcbs.map (·.owner)).findIdx? (· == some id) := by
    intro n
    rw [Array.findIdx?_map]
    rfl
  have howners : (n.retimed g).pcbs.map (·.owner) = n.pcbs.map (·.owner) := by
    refine Array.ext (by simp) fun j h _ => ?_
    simp only [retimed, Array.getElem_map, Array.getElem_mapIdx]
    rfl
  rw [howned, howned, howners]

end Net

end Conduit.Loopback
