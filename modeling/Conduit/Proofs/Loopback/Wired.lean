import Conduit.Proofs.Layer.Fares
import Conduit.Proofs.Loopback.Net

/-!
# Two endpoints that are joined

A net in which only two endpoints have something to say to each other.

* `Wired`: such a net; what is pending are reports of data that was sent.
* `Wired.next_cases`: all that a step of it can do: settle a report, or let one endpoint send.
* `Wired.stuck`: when there is no step, what is held is more than the other end may be sent.
-/

namespace Conduit.Loopback

/-- An endpoint that has nothing to send. -/
def Pcb.Silent (p : Pcb) : Prop :=
  p.peer = none ∨ p.state = .closed ∨ (p.unsent.isEmpty = true ∧ (p.finQueued = false ∨ p.finSent = true))

/-- An open endpoint that is joined to the endpoint `j` and belongs to `id`. -/
structure Pcb.Joins (j : Nat) (id : Handle) (p : Pcb) : Prop where
  owner : p.owner = some id
  peer : p.peer = some j
  isOpen : p.IsOpen
  reads : p.rxClosed = false
  plan : ∀ k ∈ p.splitPlan, 0 < k

/-- A net in which the endpoints `i` of `a` and `j` of `c` are joined, and no other has something to send. -/
structure Wired (i j : Nat) (a c : Handle) (n : Net) : Prop where
  left : (n.pcb i).Joins j a
  right : (n.pcb j).Joins i c
  ne : i ≠ j
  leftSize : i < n.pcbs.size
  rightSize : j < n.pcbs.size
  silent : ∀ m, m ≠ i → m ≠ j → (n.pcb m).Silent
  actions : ∀ x ∈ n.actions, ∃ len, x = .sent i len ∨ x = .sent j len
  options : n.options.invalid? = none

/-- The endpoint `i` sends `text` to the endpoint `j`. -/
structure Net.Sends (i j : Nat) (text : Bytes) (n n' : Net) : Prop where
  nonempty : text ≠ []
  source : ∃ rest plan, (n.pcb i).unsent.toList = text ++ rest.toList ∧ rest.WellFormed ∧
    ((∀ k ∈ (n.pcb i).splitPlan, 0 < k) → ∀ k ∈ plan, 0 < k) ∧
    n'.pcb i = { n.pcb i with unsent := rest, splitPlan := plan }
  target : ∃ k, n'.pcb j = { n.pcb j with received := (n.pcb j).received + text.length, segments := k }
  others : ∀ m, m ≠ i → m ≠ j → n'.pcb m = n.pcb m
  size : n'.pcbs.size = n.pcbs.size
  options : n'.options = n.options
  actions : n'.actions = n.actions ++ [.sent i text.length]

variable {n n' : Net} {i j k : Nat} {a c : Handle} {p q : Pcb} {text : Bytes}

theorem Options.positive {o : Options} (h : o.invalid? = none) : 0 < o.mss ∧ 0 < o.sndbuf ∧ 0 < o.window := by
  unfold Options.invalid? at h
  split at h
  · cases h
  · split at h
    · cases h
    · split at h
      · cases h
      · omega

theorem Pcb.IsOpen.state_ne (h : p.IsOpen) : p.state ≠ .closed := by
  rcases h with ⟨h | h, -⟩ <;> simp [h]

namespace Wired

theorem symm (h : Wired i j a c n) : Wired j i c a n :=
  ⟨h.right, h.left, h.ne.symm, h.rightSize, h.leftSize, fun m h₁ h₂ => h.silent m h₂ h₁,
    fun x hx => (h.actions x hx).imp fun _ => Or.symm, h.options⟩

/-- An endpoint that has changed, but not in whom it is joined to. -/
theorem changed (h : Wired i j a c n) (hq : q.Joins j a) : Wired i j a c (n.update i fun _ => q) := by
  refine ⟨?_, ?_, h.ne, ?_, ?_, fun m h₁ h₂ => ?_, h.actions, h.options⟩
  · rw [Net.pcb_update_self h.leftSize]
    exact hq
  · rw [Net.pcb_update_of_ne h.ne.symm]
    exact h.right
  · rw [Net.size_update]
    exact h.leftSize
  · rw [Net.size_update]
    exact h.rightSize
  · rw [Net.pcb_update_of_ne h₁]
    exact h.silent m h₁ h₂

/-- A report has been settled. -/
theorem settled {rest : List Action} {x : Action} (h : Wired i j a c n) (hr : n.actions = x :: rest) :
    Wired i j a c { n with actions := rest } :=
  ⟨h.left, h.right, h.ne, h.leftSize, h.rightSize, h.silent,
    fun y hy => h.actions y (by rw [hr]; exact List.mem_cons_of_mem _ hy), h.options⟩

/-- Data has been sent. -/
theorem sends (h : Wired i j a c n) (hs : n.Sends i j text n') : Wired i j a c n' := by
  obtain ⟨rest, plan, -, -, hplan, hi⟩ := hs.source
  obtain ⟨k, hj⟩ := hs.target
  refine ⟨?_, ?_, h.ne, hs.size ▸ h.leftSize, hs.size ▸ h.rightSize, fun m h₁ h₂ => ?_, fun x hx => ?_,
    hs.options ▸ h.options⟩
  · rw [hi]
    exact ⟨h.left.owner, h.left.peer, h.left.isOpen, h.left.reads, hplan h.left.plan⟩
  · rw [hj]
    exact ⟨h.right.owner, h.right.peer, h.right.isOpen, h.right.reads, h.right.plan⟩
  · rw [hs.others m h₁ h₂]
    exact h.silent m h₁ h₂
  · rw [hs.actions] at hx
    rcases List.mem_append.1 hx with hx | hx
    · exact h.actions x hx
    · exact ⟨_, .inl (List.mem_singleton.1 hx)⟩

end Wired

/-! ## Transmissions -/

theorem Net.transmit_silent (h : (n.pcb i).Silent) : n.transmit i = none := by
  unfold Net.transmit
  rcases h with h | h | ⟨h, h'⟩
  · rw [h]
  · split
    · rfl
    · rw [if_pos h]
  · split
    · rfl
    · split
      · rfl
      · rw [if_neg (by simp [h]), if_neg (by rcases h' with h' | h' <;> simp [h'])]

/-- An open endpoint sends data or nothing. -/
theorem Net.transmit_joined (h : (n.pcb i).Joins j a) :
    n.transmit i = if !(n.pcb i).unsent.isEmpty then n.sendSegment i j else none := by
  unfold Net.transmit
  rw [h.peer]
  simp only [if_neg h.isOpen.state_ne, h.isOpen.2, Bool.false_and, Bool.false_eq_true, if_false]

theorem Net.room_le (n : Net) (p q : Pcb) : n.room p q ≤ p.unsent.size := by
  unfold Net.room
  cases p.splitPlan with
  | nil =>
    dsimp only
    split <;> omega
  | cons f plan =>
    dsimp only
    split <;> omega

/-- Data may be sent, unless the one that reads it has as much as it may be sent. -/
theorem Net.full_of_room (hp : ∀ f ∈ p.splitPlan, 0 < f) (hm : 0 < n.options.mss) (hs : 0 < p.unsent.size)
    (h : n.room p q = 0) : q.state ≠ .closed ∧ q.rxClosed = false ∧ n.options.window ≤ q.outstanding := by
  have hreads : (q.state = .closed || q.rxClosed) = false ∧ n.options.window ≤ q.outstanding := by
    unfold room at h
    cases hplan : p.splitPlan with
    | nil =>
      rw [hplan] at h
      dsimp only at h
      split at h
      · omega
      · rename_i hq
        exact ⟨by simpa using hq, by omega⟩
    | cons f plan =>
      have hf := hp f (hplan ▸ List.mem_cons_self)
      rw [hplan] at h
      dsimp only at h
      split at h
      · omega
      · rename_i hq
        exact ⟨by simpa using hq, by omega⟩
  obtain ⟨hreads, hfull⟩ := hreads
  rw [Bool.or_eq_false_iff, decide_eq_false_iff_not] at hreads
  exact ⟨hreads.1, hreads.2, hfull⟩

/-- When an endpoint does not send the data that it holds, the one that it is joined to reads, and has as much as it may be
sent. -/
theorem Net.full_of_transmit (hp : (n.pcb i).peer = some j) (hs : (n.pcb i).state ≠ .closed) (hw : (n.pcb i).unsent.WellFormed)
    (hplan : ∀ f ∈ (n.pcb i).splitPlan, 0 < f) (hm : 0 < n.options.mss) (hne : (n.pcb i).unsent.toList ≠ [])
    (h : n.transmit i = none) :
    (n.pcb j).state ≠ .closed ∧ (n.pcb j).rxClosed = false ∧ n.options.window ≤ (n.pcb j).outstanding := by
  have hempty : (n.pcb i).unsent.isEmpty = false := by
    rw [← Bool.not_eq_true, hw.isEmpty_iff]
    exact hne
  have hsize : 0 < (n.pcb i).unsent.size := by
    rw [hw.size_eq]
    exact List.length_pos_iff.2 hne
  unfold Net.transmit at h
  rw [hp] at h
  dsimp only at h
  rw [if_neg hs, hempty] at h
  unfold Net.sendSegment at h
  simp only [Bool.not_false, if_true] at h
  split at h
  · rename_i hroom
    exact Net.full_of_room hplan hm hsize hroom
  · split at h <;> cases h

theorem planAfter_pos {plan : List Nat} (h : ∀ f ∈ plan, 0 < f) (m : Nat) : ∀ f ∈ Net.planAfter m plan, 0 < f := by
  cases plan with
  | nil => exact h
  | cons f rest =>
    intro x hx
    change x ∈ (if f - m = 0 then rest else (f - m) :: rest) at hx
    split at hx
    · exact h x (List.mem_cons_of_mem _ hx)
    · rename_i hne
      rcases List.mem_cons.1 hx with rfl | hx
      · exact Nat.pos_of_ne_zero hne
      · exact h x (List.mem_cons_of_mem _ hx)

/-- **One segment**, sent to an endpoint that reads. -/
theorem Net.sendSegment_joined {r : Result (Nat × Delivery)} (hij : i ≠ j) (hi : i < n.pcbs.size)
    (hj : j < n.pcbs.size) (hw : (n.pcb i).unsent.WellFormed) (h : (n.pcb j).Joins k c)
    (hr : n.sendSegment i j = some r) :
    ∃ text, n.Sends i j text r.net ∧ r.value = (j, .event (.recv text)) := by
  unfold Net.sendSegment at hr
  have hgone : ¬ ((decide ((n.pcb j).state = .closed) || (n.pcb j).rxClosed) = true) := by
    simp [h.isOpen.state_ne, h.reads]
  have hle := n.room_le (n.pcb i) (n.pcb j)
  simp only [hgone, Bool.false_eq_true, if_false] at hr
  generalize n.room (n.pcb i) (n.pcb j) = chunk at hr hle
  split at hr
  · cases hr
  · rename_i h0
    cases hr
    obtain ⟨h₁, h₂, h₃⟩ := Segments.read_eq hw (n := chunk)
    have hlen : ((n.pcb i).unsent.read chunk).1.length = chunk := by
      rw [h₁, List.length_take, ← hw.size_eq]
      omega
    refine ⟨_, ⟨?_, ⟨_, Net.planAfter chunk (n.pcb i).splitPlan, ?_, h₃, fun hp => planAfter_pos hp _, ?_⟩,
      ⟨(n.pcb j).segments + 1, ?_⟩, ?_, ?_, rfl, ?_⟩, rfl⟩
    · intro hn
      rw [hn] at hlen
      exact h0 hlen.symm
    · rw [h₁, h₂, List.take_append_drop]
    · rw [Net.pcb_update_of_ne hij, Net.pcb_pend, Net.pcb_update_self hi]
    · rw [Net.pcb_update_self (by simpa using hj), Net.pcb_pend, Net.pcb_update_of_ne hij.symm, hlen]
    · intro m h₁ h₂
      rw [Net.pcb_update_of_ne h₂, Net.pcb_pend, Net.pcb_update_of_ne h₁]
    · simp
    · rw [hlen]
      rfl

/-! ## Steps -/

/-- The endpoint whose turn it is, among those that come after `i`. -/
theorem Net.transmitFrom_some {r : Result (Nat × Delivery)} {m : Nat} (h : n.transmitFrom m i = some r) :
    ∃ i' r' cursor, n.transmit i' = some r' ∧ r = { r' with net := { r'.net with cursor } } := by
  induction m generalizing i with
  | zero => cases h
  | succ m ih =>
    unfold Net.transmitFrom at h
    cases ht : n.transmit i with
    | some r' =>
      rw [ht] at h
      cases h
      exact ⟨_, _, _, ht, rfl⟩
    | none =>
      rw [ht] at h
      exact ih h

/-- Each endpoint has its turn. -/
theorem Net.transmitFrom_none {m : Nat} (h : n.transmitFrom m i = none) (hi : i < n.pcbs.size) :
    ∀ d < m, n.transmit ((i + d) % n.pcbs.size) = none := by
  induction m generalizing i with
  | zero =>
    intro d hd
    omega
  | succ m ih =>
    unfold Net.transmitFrom at h
    cases ht : n.transmit i with
    | some r =>
      rw [ht] at h
      cases h
    | none =>
      rw [ht] at h
      intro d hd
      cases d with
      | zero =>
        rw [Nat.add_zero, Nat.mod_eq_of_lt hi]
        exact ht
      | succ d =>
        have := ih h (Nat.mod_lt _ (by omega)) d (by omega)
        rwa [Nat.mod_add_mod, Nat.add_assoc, Nat.add_comm 1 d] at this

/-- What a step of a wired net does: it settles the oldest report, or lets one endpoint send. -/
inductive Wired.Steps (i j : Nat) (n : Net) : Result (Nat × Delivery) → Prop
  | left {len : Nat} {rest : List Action} (h : n.actions = .sent i len :: rest) :
      Steps i j n ⟨{ n with actions := rest }, [], (i, .event (.sent len))⟩
  | right {len : Nat} {rest : List Action} (h : n.actions = .sent j len :: rest) :
      Steps i j n ⟨{ n with actions := rest }, [], (j, .event (.sent len))⟩
  | there {text : Bytes} {n' : Net} {notes : List Note} (h : n.Sends i j text n') :
      Steps i j n ⟨n', notes, (j, .event (.recv text))⟩
  | back {text : Bytes} {n' : Net} {notes : List Note} (h : n.Sends j i text n') :
      Steps i j n ⟨n', notes, (i, .event (.recv text))⟩

theorem Net.Sends.turned (h : n.Sends i j text n') (cursor : Nat) : n.Sends i j text { n' with cursor } :=
  ⟨h.nonempty, h.source, h.target, h.others, h.size, h.options, h.actions⟩

theorem Wired.next_cases (h : Wired i j a c n) (hi : (n.pcb i).unsent.WellFormed) (hj : (n.pcb j).unsent.WellFormed)
    {r : Result (Nat × Delivery)} (hr : n.next = some r) : Wired.Steps i j n r := by
  unfold Net.next at hr
  split at hr
  · rename_i x rest hx
    cases hr
    obtain ⟨len, rfl | rfl⟩ := h.actions x (by rw [hx]; exact List.mem_cons_self)
    · exact .left hx
    · exact .right hx
  · obtain ⟨m, ⟨net, notes, value⟩, cursor, ht, rfl⟩ := Net.transmitFrom_some hr
    by_cases hmi : m = i
    · subst hmi
      rw [Net.transmit_joined h.left] at ht
      split at ht
      · obtain ⟨text, hs, rfl⟩ := Net.sendSegment_joined h.ne h.leftSize h.rightSize hi h.right ht
        exact .there (hs.turned cursor)
      · cases ht
    · by_cases hmj : m = j
      · subst hmj
        rw [Net.transmit_joined h.right] at ht
        split at ht
        · obtain ⟨text, hs, rfl⟩ := Net.sendSegment_joined h.ne.symm h.rightSize h.leftSize hj h.left ht
          exact .back (hs.turned cursor)
        · cases ht
      · rw [Net.transmit_silent (h.silent m hmi hmj)] at ht
        cases ht

/-- When there is no step, nothing is pending, and no endpoint sends. -/
theorem Net.next_eq_none (h : n.next = none) (hi : i < n.pcbs.size) : n.actions = [] ∧ n.transmit i = none := by
  unfold Net.next at h
  split at h
  · cases h
  · rename_i hx
    refine ⟨hx, ?_⟩
    have hpos : 0 < n.pcbs.size := Nat.zero_lt_of_lt hi
    have hlt := Nat.mod_lt n.cursor hpos
    -- the turn of the endpoint `i` comes as many steps after the first one
    have hturn := Net.transmitFrom_none h hlt ((i + (n.pcbs.size - n.cursor % n.pcbs.size)) % n.pcbs.size)
      (Nat.mod_lt _ hpos)
    have hround : n.cursor % n.pcbs.size + (i + (n.pcbs.size - n.cursor % n.pcbs.size)) = i + n.pcbs.size := by
      omega
    rwa [Nat.add_mod_mod, hround, Nat.add_mod_right, Nat.mod_eq_of_lt hi] at hturn

/-- **When there is no step**, nothing is pending, and what an endpoint holds is more than the other may be sent. -/
theorem Wired.stuck (h : Wired i j a c n) (hi : (n.pcb i).unsent.WellFormed) (hr : n.next = none) :
    n.actions = [] ∧ ((n.pcb i).unsent.toList ≠ [] → n.options.window ≤ (n.pcb j).received - (n.pcb j).acked) := by
  obtain ⟨hx, hturn⟩ := Net.next_eq_none hr h.leftSize
  exact ⟨hx, fun hne => (Net.full_of_transmit h.left.peer h.left.isOpen.state_ne hi h.left.plan (Options.positive h.options).1
    hne hturn).2.2⟩

end Conduit.Loopback
