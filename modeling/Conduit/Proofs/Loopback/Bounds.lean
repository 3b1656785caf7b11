import Conduit.Proofs.Loopback.Course

/-!
# The bounds of flow control

What happens to a net once keeps every endpoint within its bounds: no more is left to acknowledge than its window, and it
holds no more than its buffer.

* `Pcb.Fits`: an endpoint within its bounds.
* `Net.Steady`, `Net.Follows`: changes that send nothing, and keep a plan of sizes or drop it with its endpoint.
* `Net.Passes`: one segment on its way. It fits the segment size and the first planned size.
* `Net.step_cases`: **a step sends one such segment, or nothing.**
* `Net.write_ok_iff`: when a write is taken.
-/

namespace Conduit.Loopback

/-- An endpoint within its bounds. -/
structure Pcb.Fits (o : Options) (p : Pcb) : Prop where
  acked : p.acked ≤ p.received
  window : p.received - p.acked ≤ o.window
  stored : p.unsent.WellFormed
  sndbuf : p.unsent.size ≤ o.sndbuf

/-- Who sends a segment in the next step, and of which size: the step leaves a report of it. -/
def Net.segment? (n : Net) : Option (Nat × Nat) :=
  match n.actions, n.next.map (·.net.actions) with
  | [], some [Action.sent i len] => some (i, len)
  | _, _ => none

variable {o : Options} {n n' n'' : Net} {i j m len : Nat} {p q r : Pcb} {f g : Pcb → Pcb}

/-! ## Changes that send nothing -/

/-- A change that keeps the bounds and the plan. -/
structure Pcb.Steady (o : Options) (p q : Pcb) : Prop where
  fits : p.Fits o → q.Fits o
  plan : q.splitPlan = p.splitPlan

/-- A change that keeps the bounds, and the plan unless the endpoint is closed. -/
structure Pcb.Follows (o : Options) (p q : Pcb) : Prop where
  fits : p.Fits o → q.Fits o
  plan : q.splitPlan = p.splitPlan ∨ q.splitPlan = [] ∧ q.state = .closed

theorem Pcb.fits_default : ({} : Pcb).Fits o := ⟨Nat.le_refl _, Nat.zero_le _, Segments.wellFormed_default, Nat.zero_le _⟩

theorem Pcb.Fits.congr (h : p.Fits o) (hr : q.received = p.received) (ha : q.acked = p.acked)
    (hu : q.unsent = p.unsent) : q.Fits o :=
  ⟨hr ▸ ha ▸ h.acked, hr ▸ ha ▸ h.window, hu ▸ h.stored, hu ▸ h.sndbuf⟩

/-- A change of nothing that is bounded. -/
theorem Pcb.Steady.of_eq (hr : q.received = p.received) (ha : q.acked = p.acked) (hu : q.unsent = p.unsent)
    (hp : q.splitPlan = p.splitPlan) : p.Steady o q := ⟨fun h => h.congr hr ha hu, hp⟩

theorem Pcb.Steady.refl (p : Pcb) : p.Steady o p := .of_eq rfl rfl rfl rfl

theorem Pcb.Steady.trans (h : p.Steady o q) (h' : q.Steady o r) : p.Steady o r :=
  ⟨fun hp => h'.fits (h.fits hp), h'.plan.trans h.plan⟩

theorem Pcb.Steady.follows (h : p.Steady o q) : p.Follows o q := ⟨h.fits, .inl h.plan⟩

theorem Pcb.Steady.before (h : p.Steady o q) (h' : q.Follows o r) : p.Follows o r :=
  ⟨fun hp => h'.fits (h.fits hp), h.plan ▸ h'.plan⟩

/-- What belongs to whom is not bounded. -/
theorem Pcb.Follows.owned (h : p.Follows o q) (x : Option Handle) : p.Follows o { q with owner := x } :=
  ⟨fun hp => (h.fits hp).congr rfl rfl rfl, h.plan⟩

namespace Net

/-- A change that keeps all bounds and all plans. -/
structure Steady (n n' : Net) : Prop where
  options : n'.options = n.options
  pcb : ∀ i, (n.pcb i).Steady n.options (n'.pcb i)

/-- A change that keeps all bounds, and all plans but those of endpoints that are closed. -/
structure Follows (n n' : Net) : Prop where
  options : n'.options = n.options
  pcb : ∀ i, (n.pcb i).Follows n.options (n'.pcb i)

theorem Steady.refl (n : Net) : n.Steady n := ⟨rfl, fun _ => .refl _⟩

theorem Steady.trans (h : n.Steady n') (h' : n'.Steady n'') : n.Steady n'' :=
  ⟨h'.options.trans h.options, fun i => (h.pcb i).trans (h.options ▸ h'.pcb i)⟩

theorem Steady.follows (h : n.Steady n') : n.Follows n' := ⟨h.options, fun i => (h.pcb i).follows⟩

theorem Steady.before (h : n.Steady n') (h' : n'.Follows n'') : n.Follows n'' :=
  ⟨h'.options.trans h.options, fun i => (h.pcb i).before (h.options ▸ h'.pcb i)⟩

/-- A change of one endpoint. -/
theorem steady_update (hf : (n.pcb m).Steady n.options (f (n.pcb m))) : n.Steady (n.update m f) := by
  refine ⟨rfl, fun i => pcb_update_elim (.refl _) fun hi => ?_⟩
  subst hi
  exact hf

/-- An endpoint is given another owner. -/
theorem Follows.owned (h : n.Follows n') (m : Nat) (x : Option Handle) :
    n.Follows (n'.update m fun p => { p with owner := x }) :=
  ⟨h.options, fun i => pcb_update_elim (h.pcb i) fun _ => (h.pcb i).owned x⟩

/-- A new endpoint. -/
theorem steady_add (hp : p.Fits n.options) (hs : p.splitPlan = []) : n.Steady (n.add p).2 := by
  refine ⟨rfl, fun i => ?_⟩
  rw [pcb_add]
  split
  · rename_i hi
    rw [pcb_of_size_le (Nat.le_of_eq hi.symm)]
    exact ⟨fun _ => hp, hs⟩
  · exact .refl _

theorem steady_pend (a : Action) : n.Steady (n.pend a) := ⟨rfl, fun _ => .refl _⟩

theorem follows_release (n : Net) (m : Nat) : n.Follows (n.release m) := by
  have h : n.Follows (n.update m fun p => { p with state := .closed, owner := none, unsent := .empty, splitPlan := [] }) := by
    refine ⟨rfl, fun i => pcb_update_elim (Pcb.Steady.refl _).follows fun _ => ⟨fun h => ?_, .inr ⟨rfl, rfl⟩⟩⟩
    exact ⟨h.acked, h.window, Segments.wellFormed_empty, Nat.zero_le _⟩
  unfold release
  simp only
  split
  · split
    · exact ⟨rfl, h.pcb⟩
    · exact h
  · exact h

theorem steady_resetPeer (n : Net) (m : Nat) : n.Steady (n.resetPeer m) := by
  unfold resetPeer
  split
  · split
    · exact steady_pend _
    · exact .refl n
  · exact .refl n

theorem follows_abort (n : Net) (m : Nat) : n.Follows (n.abort m) :=
  (steady_resetPeer n m).before (follows_release _ m)

theorem allocPort_steady {port : Nat} (h : n.allocPort = .ok (port, n')) : n.Steady n' := by
  obtain ⟨k, rfl⟩ := allocPort_ok h
  exact ⟨rfl, fun _ => .refl _⟩

theorem ensureLocal_steady {addr : Endpoint} (h : n.ensureLocal m = .ok (addr, n')) : n.Steady n' := by
  unfold ensureLocal at h
  split at h
  · cases h
    exact .refl n
  · cases ha : n.allocPort with
    | error => rw [ha] at h; cases h
    | ok r =>
      rw [ha] at h
      cases h
      exact (allocPort_steady ha).trans (steady_update (.of_eq rfl rfl rfl rfl))

theorem bind_steady {addr : Endpoint} {res : Result Outcome} (h : n.bind m addr = .ok res) : n.Steady res.net := by
  unfold bind at h
  split at h
  · cases ha : n.allocPort with
    | error => rw [ha] at h; cases h
    | ok r =>
      rw [ha] at h
      cases h
      exact (allocPort_steady ha).trans (steady_update (.of_eq rfl rfl rfl rfl))
  · split at h <;> cases h
    · exact .refl n
    · exact steady_update (.of_eq rfl rfl rfl rfl)

theorem listen_steady {res : Result Outcome} (h : n.listen m = .ok res) : n.Steady res.net := by
  unfold listen at h
  cases hl : n.ensureLocal m with
  | error => rw [hl] at h; cases h
  | ok r =>
    have h₁ := ensureLocal_steady hl
    rw [hl] at h
    change (if _ then _ else _) = _ at h
    split at h <;> cases h
    · exact h₁
    · have h₂ : n.Steady { r.2 with listeners := (r.1.port, m) :: r.2.listeners } := ⟨h₁.options, h₁.pcb⟩
      exact h₂.trans (steady_update (.of_eq rfl rfl rfl rfl))

theorem connect_steady {addr : Endpoint} {res : Result Outcome} (h : n.connect m addr = .ok res) : n.Steady res.net := by
  unfold connect at h
  split at h
  · cases h
    exact .refl n
  · cases hl : n.ensureLocal m with
    | error => rw [hl] at h; cases h
    | ok r =>
      have h₁ := ensureLocal_steady hl
      rw [hl] at h
      dsimp only [Bind.bind, Except.bind] at h
      have h₂ := h₁.trans (steady_update (m := m) (f := fun p => { p with remoteAddr := some addr, state := .synSent })
        (.of_eq rfl rfl rfl rfl))
      split at h <;> cases h
      · exact h₂.trans (steady_pend _)
      · refine .trans (.trans (.trans (h₂.trans ?_) (steady_update ?_)) (steady_pend _)) (steady_pend _)
        · exact steady_add (Pcb.fits_default.congr rfl rfl rfl) rfl
        · exact .of_eq rfl rfl rfl rfl

theorem write_steady (n : Net) (m : Nat) (data : Bytes) : n.Steady (n.write m data).1 := by
  unfold write
  simp only
  split
  · exact .refl n
  · split
    · exact .refl n
    · split
      · exact .refl n
      · rename_i hroom
        refine steady_update ⟨fun h => ⟨h.acked, h.window, h.stored.push, ?_⟩, rfl⟩
        show ((n.pcb m).unsent.push data).size ≤ _
        rw [Segments.size_push]
        have := h.sndbuf
        omega

theorem recved_steady {k : Nat} (h : n.recved m k = .ok n') : n.Steady n' := by
  unfold recved at h
  split at h <;> cases h
  refine steady_update ⟨fun hp => ⟨Nat.min_le_right _ _, ?_, hp.stored, hp.sndbuf⟩, rfl⟩
  have := hp.window
  show (n.pcb m).received - min ((n.pcb m).acked + k) (n.pcb m).received ≤ _
  omega

theorem close_follows (n : Net) (m : Nat) : n.Follows (n.close m).1 := by
  unfold close
  simp only
  split
  · exact (steady_update (.of_eq rfl rfl rfl rfl)).follows
  · have h₁ : n.Steady (n.update m fun p => { p with rxClosed := true }) := steady_update (.of_eq rfl rfl rfl rfl)
    cases (n.pcb m).state with
    | established | synReceived | closeWait => exact (h₁.trans (steady_update (.of_eq rfl rfl rfl rfl))).follows
    | finWait1 | finWait2 | closing | lastAck | timeWait => exact h₁.follows
    | closed | listen | synSent => exact h₁.before (follows_abort _ m)

theorem shutdown_steady (n : Net) (m : Nat) (dir : Direction) : n.Steady (n.shutdown m dir).1 := by
  have h₁ : n.Steady (if dir = .write then n else n.update m fun p => { p with rxClosed := true }) := by
    split
    · exact .refl n
    · exact steady_update (.of_eq rfl rfl rfl rfl)
  unfold shutdown
  simp only
  generalize (if dir = .write then n else n.update m fun p => { p with rxClosed := true }) = n₁ at h₁
  split
  · exact h₁
  · split
    · exact h₁.trans (steady_update (.of_eq rfl rfl rfl rfl))
    · exact h₁.trans (steady_update (.of_eq rfl rfl rfl rfl))
    · exact h₁

theorem perform_follows {op : PcbOp} {res : Result op.Reply} (h : n.perform m op = .ok res) : n.Follows res.net := by
  cases op with
  | bind => exact (bind_steady h).follows
  | connect => exact (connect_steady h).follows
  | listen => exact (listen_steady h).follows
  | write data =>
    cases h
    exact (write_steady n m data).follows
  | output | mss | sndbuf | sndqueuelen | nagleDisabled | localAddr | remoteAddr | state =>
    cases h
    exact (Steady.refl n).follows
  | recved k =>
    change (n.recved m k).map _ = _ at h
    cases hr : n.recved m k with
    | error => rw [hr] at h; cases h
    | ok n' =>
      rw [hr] at h
      cases h
      exact (recved_steady hr).follows
  | close =>
    cases h
    exact close_follows n m
  | shutdown dir =>
    cases h
    exact (shutdown_steady n m dir).follows
  | abort =>
    cases h
    exact follows_abort n m
  | setNagle | setPrio | setPollInterval | detach =>
    cases h
    exact (steady_update (.of_eq rfl rfl rfl rfl)).follows
  | attach id =>
    cases h
    refine (steady_update ?_).follows
    split <;> exact .of_eq rfl rfl rfl rfl

theorem steady_tick (n : Net) : n.Steady n.tick.1 := by
  refine ⟨rfl, fun i => ?_⟩
  rw [pcb_tick]
  obtain ⟨k, hk⟩ := Pcb.beat_fst (n.pcb i)
  rw [hk]
  exact .of_eq rfl rfl rfl rfl

theorem failCloses_steady (n : Net) (id : Handle) (count : Nat) : n.Steady (n.failCloses id count).1 := by
  unfold failCloses updateOwned
  split
  · exact steady_update (.of_eq rfl rfl rfl rfl)
  · exact .refl n

/-! ## Steps -/

/-- One segment of the endpoint `i` is on its way to the endpoint `j`. -/
structure Passes (i len : Nat) (n n' : Net) : Prop where
  pos : 1 ≤ len
  mss : len ≤ n.options.mss
  planned : ∀ f ∈ (n.pcb i).splitPlan.head?, len ≤ f
  options : n'.options = n.options
  actions : n'.actions = n.actions ++ [.sent i len]
  plan : (n'.pcb i).splitPlan = planAfter len (n.pcb i).splitPlan
  others : ∀ m, m ≠ i → (n'.pcb m).splitPlan = (n.pcb m).splitPlan
  fits : ∀ m, (n.pcb m).Fits n.options → (n'.pcb m).Fits n.options

/-- Data has been brought to the endpoint `j`, from the front of what the endpoint `i` holds. -/
structure Brings (i j len : Nat) (text : Bytes) (n n' : Net) : Prop where
  text : (n.pcb i).unsent.WellFormed → text.length = len ∧ (n.pcb i).unsent.toList = text ++ (n'.pcb i).unsent.toList
  /-- It is not acknowledged yet. -/
  slack : (n.pcb j).acked ≤ (n.pcb j).received → (n'.pcb j).acked + len ≤ (n'.pcb j).received

theorem room_le_mss (n : Net) (p q : Pcb) : n.room p q ≤ n.options.mss := by
  unfold room
  cases p.splitPlan <;> dsimp only <;> split <;> omega

theorem room_le_planned (n : Net) (p q : Pcb) : ∀ f ∈ p.splitPlan.head?, n.room p q ≤ f := by
  intro f hf
  unfold room
  cases hp : p.splitPlan with
  | nil => simp [hp] at hf
  | cons f' rest =>
    obtain rfl : f' = f := by simpa [hp] using hf
    dsimp only
    split <;> omega

/-- A receiver that reads is not sent more than is left of its window. -/
theorem room_le_window (n : Net) (p : Pcb) (h : (q.state = .closed || q.rxClosed) = false) :
    n.room p q ≤ n.options.window - q.outstanding := by
  unfold room
  simp only [h, Bool.false_eq_true, if_false]
  omega

/-- The net without the front of what an endpoint holds. -/
def depart (n : Net) (i len : Nat) : Net :=
  n.update i fun p => { p with splitPlan := planAfter len p.splitPlan, unsent := (p.unsent.read len).2 }

/-- The net with a segment on its way. One that nobody reads is acknowledged unseen. -/
def post (n : Net) (i j len : Nat) (unread : Bool) : Net :=
  ((n.depart i len).pend (.sent i len)).update j fun p => { p with
    received := p.received + len
    segments := p.segments + 1
    acked := if unread then p.acked + len else p.acked }

@[simp] theorem depart_received : ((n.depart i len).pcb m).received = (n.pcb m).received :=
  pcb_update_elim (P := fun q => q.received = _) rfl fun _ => rfl

@[simp] theorem depart_acked : ((n.depart i len).pcb m).acked = (n.pcb m).acked :=
  pcb_update_elim (P := fun q => q.acked = _) rfl fun _ => rfl

theorem depart_fits (h : (n.pcb m).Fits o) : ((n.depart i len).pcb m).Fits o := by
  refine pcb_update_elim h fun _ => ⟨h.acked, h.window, (Segments.read_eq h.stored).2.2, ?_⟩
  show ((n.pcb m).unsent.advance _).size ≤ _
  rw [Segments.size_advance]
  exact Nat.le_trans (Nat.sub_le _ _) h.sndbuf

theorem post_fits {unread : Bool} (hw : unread = false → len ≤ n.options.window - (n.pcb j).outstanding)
    (h : (n.pcb m).Fits n.options) : ((n.post i j len unread).pcb m).Fits n.options := by
  have hs : ((n.depart i len).pcb m).Fits n.options := depart_fits h
  refine pcb_update_elim hs fun hj => ?_
  subst hj
  have hacked := hs.acked
  have hwindow := hs.window
  refine ⟨?_, ?_, hs.stored, hs.sndbuf⟩
  · show (if unread then _ else _) ≤ ((n.depart i len).pcb m).received + len
    cases unread <;> simp only [Bool.false_eq_true, if_true, if_false, pcb_pend] <;> omega
  · show ((n.depart i len).pcb m).received + len - (if unread then _ else _) ≤ _
    cases unread with
    | true =>
      simp only [if_true, pcb_pend]
      omega
    | false =>
      have := hw rfl
      unfold Pcb.outstanding at this
      simp only [Bool.false_eq_true, if_false, pcb_pend, depart_received, depart_acked] at hacked hwindow ⊢
      omega

theorem post_passes {unread : Bool} (hi : i < n.pcbs.size) (hpos : 1 ≤ len) (hmss : len ≤ n.options.mss)
    (hplan : ∀ f ∈ (n.pcb i).splitPlan.head?, len ≤ f)
    (hw : unread = false → len ≤ n.options.window - (n.pcb j).outstanding) : n.Passes i len (n.post i j len unread) := by
  have hkept : ∀ m, ((n.post i j len unread).pcb m).splitPlan = ((n.depart i len).pcb m).splitPlan := fun m =>
    pcb_update_elim (P := fun q => q.splitPlan = _) rfl fun _ => rfl
  refine ⟨hpos, hmss, hplan, rfl, rfl, ?_, fun m hm => ?_, fun m => post_fits hw⟩
  · rw [hkept]
    unfold depart
    rw [pcb_update_self hi]
  · rw [hkept]
    unfold depart
    rw [pcb_update_of_ne hm]

theorem post_brings (hi : i < n.pcbs.size) (hj : j < n.pcbs.size) (hheld : len ≤ (n.pcb i).unsent.size) :
    n.Brings i j len ((n.pcb i).unsent.read len).1 (n.post i j len false) := by
  refine ⟨fun hw => ?_, fun hle => ?_⟩
  · obtain ⟨h₁, h₂, -⟩ := Segments.read_eq hw (n := len)
    have hkept : ((n.post i j len false).pcb i).unsent = ((n.depart i len).pcb i).unsent :=
      pcb_update_elim (P := fun q => q.unsent = _) rfl fun _ => rfl
    have hu : ((n.depart i len).pcb i).unsent = ((n.pcb i).unsent.read len).2 := by
      unfold depart
      rw [pcb_update_self hi]
    rw [hkept, hu, h₁, h₂, List.take_append_drop, List.length_take, ← hw.size_eq]
    exact ⟨Nat.min_eq_left hheld, rfl⟩
  · unfold post
    rw [pcb_update_self (by simpa [depart] using hj)]
    simp only [pcb_pend, depart_received, depart_acked, Bool.false_eq_true, if_false]
    exact Nat.add_le_add_right hle len

/-- **One segment.** -/
theorem sendSegment_passes {res : Result (Nat × Delivery)} (hi : i < n.pcbs.size) (h : n.sendSegment i j = some res) :
    ∃ len, n.Passes i len res.net ∧
      (res.value = (j, .nothing) ∨ ∃ text, res.value = (j, .event (.recv text)) ∧ n.Brings i j len text res.net) := by
  unfold sendSegment at h
  dsimp only at h
  have hmss := n.room_le_mss (n.pcb i) (n.pcb j)
  have hheld := n.room_le (n.pcb i) (n.pcb j)
  have hplan := n.room_le_planned (n.pcb i) (n.pcb j)
  have hwin := n.room_le_window (n.pcb i) (q := n.pcb j)
  generalize n.room (n.pcb i) (n.pcb j) = len at h hmss hheld hplan hwin
  split at h
  · cases h
  · rename_i hpos
    have hpos := Nat.one_le_iff_ne_zero.2 hpos
    split at h <;> rename_i hgone
    · cases h
      refine ⟨len, ?_, .inl rfl⟩
      have hp : n.Passes i len (n.post i j len true) := post_passes hi hpos hmss hplan nofun
      simp only
      exact hp
    · cases h
      have hp : n.Passes i len (n.post i j len false) :=
        post_passes hi hpos hmss hplan fun _ => hwin (by simpa using hgone)
      -- one that reads is open, and so it exists
      have hj : j < n.pcbs.size := by
        refine Nat.lt_of_not_ge fun hge => hgone ?_
        rw [pcb_of_size_le hge]
        rfl
      have hb := post_brings hi hj hheld
      refine ⟨len, ?_, .inr ⟨_, rfl, ?_⟩⟩
      · simp only
        exact hp
      · simp only
        exact hb

/-- **An action is settled**, and what it brings is heeded. -/
theorem settle_follows (n : Net) (a : Action) : n.Follows ((n.settle a).1.heed (n.settle a).2.1 (n.settle a).2.2) := by
  cases a with
  | connected i => exact (steady_update (.of_eq rfl rfl rfl rfl)).follows
  | sent i len => exact (Steady.refl n).follows
  | accept listener new =>
    change n.Follows (if _ then n.abort new else n)
    split
    · exact follows_abort n new
    · exact (Steady.refl n).follows
  | reset i =>
    have h := (follows_release n i).owned i (n.pcb i).owner
    simp only [settle]
    split
    · exact h.owned i none
    · exact h

/-- **A goodbye.** -/
theorem sendFin_steady (n : Net) (i j : Nat) : n.Steady (n.sendFin i j).net := by
  unfold sendFin
  dsimp only
  split <;> exact (steady_update (.of_eq rfl rfl rfl rfl)).trans (steady_update (.of_eq rfl rfl rfl rfl))

theorem sendFin_value (n : Net) (i j : Nat) :
    (n.sendFin i j).value = (j, .nothing) ∨ (n.sendFin i j).value = (j, .event .eof) := by
  unfold sendFin
  dsimp only
  split
  · exact .inl rfl
  · exact .inr rfl

/-- Data that arrives for nobody is acknowledged. -/
theorem Passes.heed {text : Bytes} (h : n.Passes i len n') (hb : n.Brings i j len text n')
    (hf : ∀ m, (n.pcb m).Fits n.options) : n.Passes i len (n'.heed j (.event (.recv text))) := by
  change n.Passes i len (if _ then n'.acknowledge j text.length else n')
  split
  · have hsize := (hb.text (hf i).stored).1
    have hkept : ∀ m, ((n'.acknowledge j text.length).pcb m).splitPlan = (n'.pcb m).splitPlan := fun m =>
      pcb_update_elim (P := fun q => q.splitPlan = _) rfl fun _ => rfl
    refine ⟨h.pos, h.mss, h.planned, h.options, h.actions, (hkept i).trans h.plan,
      fun m hm => (hkept m).trans (h.others m hm), fun m hm => pcb_update_elim (h.fits m hm) fun hj => ?_⟩
    subst hj
    have hw := (h.fits m hm).window
    have hslack := hb.slack hm.acked
    refine ⟨?_, ?_, (h.fits m hm).stored, (h.fits m hm).sndbuf⟩
    · show (n'.pcb m).acked + text.length ≤ (n'.pcb m).received
      omega
    · show (n'.pcb m).received - ((n'.pcb m).acked + text.length) ≤ _
      omega
  · exact h

/-- **One step** sends a segment, or nothing. -/
theorem step_cases {r : Result (Nat × Delivery)} (hr : n.next = some r) (hf : ∀ m, (n.pcb m).Fits n.options) :
    (n.segment? = none ∧ (∀ j text, r.value ≠ (j, .event (.recv text))) ∧ n.Follows (r.net.heed r.value.1 r.value.2)) ∨
      ∃ i j len, n.segment? = some (i, len) ∧ (n.pcb i).peer = some j ∧ n.Passes i len (r.net.heed r.value.1 r.value.2) ∧
        (r.value = (j, .nothing) ∨ ∃ text, r.value = (j, .event (.recv text)) ∧ text.length = len ∧
          (n.pcb i).unsent.toList = text ++ (r.net.pcb i).unsent.toList) := by
  cases next_stepped hr with
  | @settles a rest ha =>
    refine .inl ⟨by simp [segment?, ha], fun j text => ?_, ?_⟩
    · cases a with
      | reset i =>
        simp only [settle]
        split <;> simp
      | connected | accept | sent => simp [settle]
    · have h₁ : n.Steady { n with actions := rest } := ⟨rfl, fun _ => .refl _⟩
      exact h₁.before (settle_follows _ a)
  | @goodbye i j hn hp cursor =>
    have hv := sendFin_value n i j
    refine .inl ⟨?_, fun j' text => ?_, ?_⟩
    · have ha : (n.sendFin i j).net.actions = n.actions := by
        unfold sendFin
        dsimp only
        split <;> rfl
      simp [segment?, hn, hr, ha]
    · rcases hv with hv | hv <;> simp [hv]
    · have h := (sendFin_steady n i j).follows
      rcases hv with hv | hv <;> rw [hv] <;> exact ⟨h.options, h.pcb⟩
  | @segment i j r hn hp h cursor =>
    obtain ⟨len, hpass, hval⟩ := sendSegment_passes (lt_size_of_peer hp) h
    have hseg : n.segment? = some (i, len) := by
      have ha := hpass.actions
      rw [hn] at ha
      simp [segment?, hn, hr, ha]
    have hturned : n.Passes i len { r.net with cursor } :=
      ⟨hpass.pos, hpass.mss, hpass.planned, hpass.options, hpass.actions, hpass.plan, hpass.others, hpass.fits⟩
    refine .inr ⟨i, j, len, hseg, hp, ?_⟩
    rcases hval with hval | ⟨text, hval, hb⟩
    · rw [hval]
      exact ⟨hturned, .inl rfl⟩
    · obtain ⟨hlen, htext⟩ := hb.text (hf i).stored
      rw [hval]
      exact ⟨hturned.heed ⟨hb.text, hb.slack⟩ hf, .inr ⟨text, rfl, hlen, htext⟩⟩

theorem owned?_lt {id : Handle} (h : n.owned? id = some m) : m < n.pcbs.size :=
  (Array.findIdx?_eq_some_iff_getElem.1 h).1

/-- A write is taken exactly when the write half is open and there is room for all of it. -/
theorem write_ok_iff (n : Net) (i : Nat) (data : Bytes) :
    (n.write i data).2 = .ok () ↔ (n.pcb i).IsOpen ∧ data.length ≤ n.options.sndbuf - (n.pcb i).unsent.size := by
  unfold write Pcb.IsOpen
  dsimp only
  split
  · rename_i hs
    refine ⟨nofun, fun ⟨⟨h₁, h₂⟩, _⟩ => ?_⟩
    rcases h₁ with h₁ | h₁ <;> simp [h₁, h₂] at hs
  · rename_i hs
    have hopen : ((n.pcb i).state = .established ∨ (n.pcb i).state = .closeWait) ∧ (n.pcb i).finQueued = false := by
      simp only [Bool.or_eq_true, Bool.and_eq_true, decide_eq_true_eq, not_or, Decidable.not_and_iff_not_or_not, ne_eq,
        Decidable.not_not, Bool.not_eq_true] at hs
      exact hs
    split
    · rename_i he
      rw [List.isEmpty_iff.1 he]
      exact ⟨fun _ => ⟨hopen, Nat.zero_le _⟩, fun _ => rfl⟩
    · split
      · rename_i hroom
        exact ⟨nofun, fun ⟨_, hle⟩ => absurd hroom (Nat.not_lt.2 hle)⟩
      · rename_i hroom
        exact ⟨fun _ => ⟨hopen, Nat.not_lt.1 hroom⟩, fun _ => rfl⟩

/-- A write that is refused changes nothing. -/
theorem write_error {f : Fault} {data : Bytes} (h : (n.write i data).2 = .error f) : (n.write i data).1 = n := by
  unfold write at h ⊢
  dsimp only at h ⊢
  split at h
  · rename_i hs
    rw [if_pos hs]
  · split at h
    · cases h
    · split at h
      · rename_i hs he hroom
        rw [if_neg hs, if_neg he, if_pos hroom]
      · cases h

end Net

end Conduit.Loopback
