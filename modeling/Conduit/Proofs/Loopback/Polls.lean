import Conduit.Proofs.Loopback.Retimed

/-!
# Polls

What a difference in their timings means for two nets. But for the closes and the polls of one endpoint, nobody can tell
them apart, and that endpoint is polled by each at the interval it has there.

* `Net.Shadows`: two nets that differ in the timing of an endpoint. `Net.course_shadows`: **so they do after every course
  that does not close it.** `Net.Shadows.next`, `Net.Shadows.told_step`: a step brings the same to the same.
* `Net.course_polls`: **an open endpoint is polled once in every interval.**
-/

namespace Conduit.Loopback

/-- The timing of the endpoint `j` in two nets that differ in that of the endpoint `i`, as to polls only where its interval
is another. -/
structure Timing.Near (even : Prop) (i j : Nat) (s s' : Timing) : Prop where
  failures : j ≠ i → s'.closeFailures = s.closeFailures
  interval : even → s'.pollInterval = s.pollInterval
  elapsed : even → j ≠ i → s'.pollElapsed = s.pollElapsed

/-- A close of the endpoint `i`. -/
def Happening.closes (i : Nat) : Happening → Bool
  | .perform m .close => m == i
  | _ => false

/-- The poll timer of the endpoint `i` is set. -/
def Happening.winds (i : Nat) : Happening → Bool
  | .perform m (.setPollInterval _) => m == i
  | _ => false

variable {even : Prop} {i j m k : Nat} {s s' : Timing} {p : Pcb}

theorem Timing.Near.refl (s : Timing) : Timing.Near even i j s s := ⟨fun _ => rfl, fun _ => rfl, fun _ _ => rfl⟩

namespace Net

variable {n n' n₁ : Net} {x : Happening} {g : Nat → Timing}

/-- A beat changes how far the timer has come, and looks at nothing else than the timing and the state. -/
theorem Pcb.beat_retimed (p : Pcb) (s : Timing) :
    (Pcb.beat (p.retimed s)).1 = (Pcb.beat p).1.retimed (Pcb.beat (p.retimed s)).1.timing := by
  obtain ⟨t, ht⟩ := Pcb.beat_fst p
  obtain ⟨t', ht'⟩ := Pcb.beat_fst (p.retimed s)
  rw [ht, ht']
  rfl

theorem near_beat (h : Timing.Near even i j p.timing s) :
    Timing.Near even i j (Pcb.beat p).1.timing (Pcb.beat (p.retimed s)).1.timing := by
  obtain ⟨t, ht⟩ := Pcb.beat_fst p
  obtain ⟨t', ht'⟩ := Pcb.beat_fst (p.retimed s)
  refine ⟨fun hj => ?_, fun he => ?_, fun he hj => ?_⟩
  · rw [ht, ht']
    exact h.failures hj
  · rw [ht, ht']
    exact h.interval he
  · have hsame : p.retimed s = { p with closeFailures := s.closeFailures } := by
      unfold Pcb.retimed
      rw [h.interval he, h.elapsed he hj]
      rfl
    rw [hsame]
    unfold Pcb.beat
    dsimp only
    split
    · rfl
    · split <;> rfl

/-- Two nets that differ in the timing of the endpoint `i`. -/
def Shadows (even : Prop) (i : Nat) (n n' : Net) : Prop :=
  ∃ g, n' = n.retimed g ∧ ∀ j, Timing.Near even i j (n.pcb j).timing (g j)

/-- Only the timings of endpoints that are there count. -/
theorem shadows_retimed (h : ∀ j < n.pcbs.size, Timing.Near even i j (n.pcb j).timing (g j)) :
    Shadows even i n (n.retimed g) := by
  refine ⟨fun j => if j < n.pcbs.size then g j else (n.pcb j).timing, ?_, fun j => ?_⟩
  · refine ext_pcb rfl (by simp) (fun j => ?_) rfl rfl rfl rfl
    rcases Nat.lt_or_ge j n.pcbs.size with hlt | hge
    · rw [pcb_retimed hlt, pcb_retimed hlt, if_pos hlt]
    · rw [pcb_of_size_le (by simpa using hge), pcb_of_size_le (by simpa using hge)]
  · dsimp only
    split
    · rename_i hj
      exact h j hj
    · exact .refl _

/-- What is done alike over all timings keeps them near. -/
theorem shadows_of_self (hg : ∀ j, Timing.Near even i j (n.pcb j).timing (g j))
    (h : n₁.retimed (fun j => (n.pcb j).timing) = n₁) : Shadows even i n₁ (n₁.retimed g) :=
  shadows_retimed fun j hj => timing_eq h hj ▸ hg j

theorem shadows_add (hg : ∀ j, Timing.Near even i j (n.pcb j).timing (g j)) {n₁ : Net} {s s' : Timing}
    (hsize : n₁.pcbs.size = n.pcbs.size + 1) (hold : ∀ j < n.pcbs.size, (n₁.pcb j).timing = (n.pcb j).timing)
    (hnew : (n₁.pcb n.pcbs.size).timing = s) (hs : Timing.Near even i n.pcbs.size s s') :
    Shadows even i n₁ (n₁.retimed (Function.update g n.pcbs.size s')) := by
  refine shadows_retimed fun j hj => ?_
  by_cases hn : j = n.pcbs.size
  · rw [hn, hnew, Function.update_self]
    exact hs
  · rw [hold j (by omega), Function.update_of_ne hn]
    exact hg j

/-- A change of the timing of one endpoint. -/
theorem shadows_update {f : Pcb → Pcb} (hg : ∀ j, Timing.Near even i j (n.pcb j).timing (g j))
    (h : f ((n.pcb m).retimed (g m)) = (f (n.pcb m)).retimed s) (hs : Timing.Near even i m (f (n.pcb m)).timing s) :
    Shadows even i (n.update m f) ((n.retimed g).update m f) := by
  rw [update_retimed_to n g m f s h]
  refine shadows_retimed fun j hj => ?_
  by_cases hm : j = m
  · subst hm
    rw [pcb_update_self (by simpa using hj), Function.update_self]
    exact hs
  · rw [pcb_update_of_ne hm, Function.update_of_ne hm]
    exact hg j

/-- A close of another endpoint fails in both nets, or in neither. -/
theorem close_shadows (hg : ∀ j, Timing.Near even i j (n.pcb j).timing (g j)) (hm : m ≠ i) :
    ((n.retimed g).close m).2 = (n.close m).2 ∧ Shadows even i (n.close m).1 ((n.retimed g).close m).1 := by
  have hfailures : (g m).closeFailures = (n.pcb m).closeFailures := (hg m).failures hm
  by_cases hfail : 0 < (n.pcb m).closeFailures
  · have hlt : m < n.pcbs.size := by
      refine Nat.lt_of_not_ge fun hge => ?_
      rw [pcb_of_size_le hge] at hfail
      exact Nat.lt_irrefl 0 hfail
    have hfail' : 0 < ((n.retimed g).pcb m).closeFailures := by
      rw [pcb_retimed hlt]
      exact Nat.lt_of_lt_of_eq hfail hfailures.symm
    rw [close_of_failures hfail, close_of_failures hfail']
    have hnear : Timing.Near even i m ⟨(n.pcb m).closeFailures - 1, (n.pcb m).pollInterval, (n.pcb m).pollElapsed⟩
        ⟨(g m).closeFailures - 1, (g m).pollInterval, (g m).pollElapsed⟩ :=
      ⟨fun _ => congrArg (· - 1) hfailures, (hg m).interval, (hg m).elapsed⟩
    exact ⟨rfl, shadows_update hg rfl hnear⟩
  · have hself := close_retimed n (fun j => (n.pcb j).timing) (m := m) rfl hfail
    rw [retimed_self] at hself
    rw [close_retimed n g hfailures hfail]
    exact ⟨rfl, shadows_of_self hg (congrArg Prod.fst hself).symm⟩

/-- An operation answers the same, if it is no close of that endpoint. -/
theorem perform_shadows (h : Shadows even i n n') {o : PcbOp} (hx : (Happening.perform m o).closes i = false)
    {r : Result o.Reply} (hr : n.perform m o = .ok r) :
    ∃ r', n'.perform m o = .ok r' ∧ r'.value = r.value ∧ Shadows even i r.net r'.net := by
  obtain ⟨g, rfl, hg⟩ := h
  have halike : ∀ o : PcbOp, untimed o = true → ∀ {r : Result o.Reply}, n.perform m o = .ok r →
      ∃ r', (n.retimed g).perform m o = .ok r' ∧ r'.value = r.value ∧ Shadows even i r.net r'.net := by
    intro o ho r hr
    refine ⟨retime g r, ?_, rfl, shadows_of_self hg ?_⟩
    · rw [perform_retimed n g m o ho, hr]
      rfl
    · have hself := perform_retimed n (fun j => (n.pcb j).timing) m o ho
      rw [retimed_self, hr] at hself
      exact congrArg Result.net (Except.ok.inj hself).symm
  cases o with
  | connect addr =>
    change n.connect m addr = .ok r at hr
    rcases connect_retimed n g m addr with ⟨hsame, hself⟩ | ⟨l, r', hr', hsize, hold, hnew, hother⟩
    · refine ⟨retime g r, ?_, rfl, shadows_of_self hg (hself r hr)⟩
      show (n.retimed g).connect m addr = _
      rw [hsame, hr]
      rfl
    · cases hr.symm.trans hr'
      refine ⟨_, hother, rfl, shadows_add hg hsize hold hnew ⟨fun _ => rfl, fun he => ?_, fun _ _ => rfl⟩⟩
      rcases Nat.lt_or_ge l n.pcbs.size with hlt | hge
      · rw [pcb_retimed hlt]
        exact (hg l).interval he
      · rw [pcb_of_size_le hge, pcb_of_size_le (by simpa using hge)]
  | close =>
    have hm : m ≠ i := by
      intro hm
      simp [Happening.closes, hm] at hx
    cases hr
    obtain ⟨hvalue, hs⟩ := close_shadows hg hm
    exact ⟨⟨((n.retimed g).close m).1, [], ((n.retimed g).close m).2⟩, rfl, hvalue, hs⟩
  | setPollInterval k =>
    cases hr
    refine ⟨⟨(n.retimed g).update m fun p => { p with pollInterval := k, pollElapsed := 0 }, [], ()⟩, rfl, rfl, ?_⟩
    have hset : Timing.Near even i m ⟨(n.pcb m).closeFailures, k, 0⟩ ⟨(g m).closeFailures, k, 0⟩ :=
      ⟨(hg m).failures, fun _ => rfl, fun _ _ => rfl⟩
    exact shadows_update hg rfl hset
  | _ => exact halike _ rfl hr

theorem undergo_step_self {n₁ : Net} (h : n.undergo .step = .ok n₁) :
    n₁.retimed (fun j => (n.pcb j).timing) = n₁ := by
  have hnext := next_retimed n fun j => (n.pcb j).timing
  rw [retimed_self] at hnext
  unfold undergo at h
  dsimp only at h
  split at h
  · cases h
    exact retimed_self n
  · rename_i r hr
    cases h
    rw [hr] at hnext
    have hnet := congrArg Result.net (Option.some.inj hnext)
    rw [← heed_retimed]
    exact congrArg (fun n' => heed n' r.value.1 r.value.2) hnet.symm

/-- A step brings the same to the same endpoint. -/
theorem Shadows.next (h : Shadows even i n n') :
    n'.next.map (fun r => (r.notes, r.value)) = n.next.map fun r => (r.notes, r.value) := by
  obtain ⟨g, rfl, -⟩ := h
  rw [next_retimed]
  cases n.next <;> rfl

/-- A step tells the same owner. -/
theorem Shadows.told_step (h : Shadows even i n n') (j : Nat) : n'.told j .step = n.told j .step := by
  obtain ⟨g, rfl, -⟩ := h
  unfold told
  dsimp only
  rw [next_retimed]
  cases n.next with
  | none => rfl
  | some r =>
    obtain ⟨net, notes, k, d⟩ := r
    cases d <;> simp only [Option.map_some, retime, retimed_owner]

/-- Where the interval is no other, all other endpoints are the same. -/
theorem Shadows.pcb_eq (h : Shadows even i n n') (he : even) (hj : j ≠ i) : n'.pcb j = n.pcb j := by
  obtain ⟨g, rfl, hg⟩ := h
  rcases Nat.lt_or_ge j n.pcbs.size with hlt | hge
  · have hsame : g j = (n.pcb j).timing := by
      obtain ⟨hfailures, hinterval, helapsed⟩ := hg j
      calc g j = ⟨(g j).closeFailures, (g j).pollInterval, (g j).pollElapsed⟩ := rfl
        _ = (n.pcb j).timing := by rw [hfailures hj, hinterval he, helapsed he hj]
    rw [pcb_retimed hlt, hsame]
    rfl
  · rw [pcb_of_size_le hge, pcb_of_size_le (by simpa using hge)]

/-- So a beat tells the same of them. -/
theorem Shadows.told_tick (h : Shadows even i n n') (he : even) (hj : j ≠ i) : n'.told j .tick = n.told j .tick := by
  unfold told
  rw [h.pcb_eq he hj]

theorem shadows_tick (hg : ∀ j, Timing.Near even i j (n.pcb j).timing (g j)) : Shadows even i n.tick.1 (n.retimed g).tick.1 := by
  have hsize : n.tick.1.pcbs.size = n.pcbs.size := by simp [tick]
  have hbeats : (n.retimed g).tick.1 = n.tick.1.retimed fun j => (Pcb.beat ((n.pcb j).retimed (g j))).1.timing := by
    refine ext_pcb rfl (by simp [tick]) (fun j => ?_) rfl rfl rfl rfl
    rcases Nat.lt_or_ge j n.pcbs.size with hlt | hge
    · rw [pcb_tick, pcb_retimed hlt, pcb_retimed (hsize ▸ hlt), pcb_tick]
      exact Pcb.beat_retimed _ _
    · rw [pcb_tick, pcb_of_size_le (by simpa using hge), pcb_of_size_le (by simpa [hsize] using hge)]
      rfl
  rw [hbeats]
  refine shadows_retimed fun j _ => ?_
  rw [pcb_tick]
  exact near_beat (hg j)

theorem shadows_updateOwned (hg : ∀ j, Timing.Near even i j (n.pcb j).timing (g j)) (id : Handle) {f : Pcb → Pcb}
    (s : Timing → Timing) (hf : ∀ p t, f (p.retimed t) = (f p).retimed (s t))
    (hs : ∀ j p t, Timing.Near even i j p.timing t → Timing.Near even i j (f p).timing (s t)) :
    Shadows even i (n.updateOwned id f).1 ((n.retimed g).updateOwned id f).1 := by
  unfold updateOwned
  rw [owned?_retimed]
  cases n.owned? id with
  | none => exact ⟨g, rfl, hg⟩
  | some m => exact shadows_update hg (hf _ _) (hs m _ _ (hg m))

/-- **Whatever happens, if it is no close of the endpoint.** -/
theorem undergo_shadows (h : Shadows even i n n') (hx : x.closes i = false) (hu : n.undergo x = .ok n₁) :
    ∃ n₁', n'.undergo x = .ok n₁' ∧ Shadows even i n₁ n₁' := by
  cases x with
  | add =>
    obtain ⟨g, rfl, hg⟩ := h
    cases hu
    refine ⟨_, rfl, ?_⟩
    have hadd := add_retimed n g {} ⟨0, 0, 0⟩
    have hold : ∀ j < n.pcbs.size, ((n.add {}).2.pcb j).timing = (n.pcb j).timing := by
      intro j hj
      rw [pcb_add, if_neg (Nat.ne_of_lt hj)]
    have hnew : ((n.add {}).2.pcb n.pcbs.size).timing = ⟨0, 0, 0⟩ := by
      rw [pcb_add, if_pos rfl]
      rfl
    have hnear := shadows_add hg (by simp [add]) hold hnew (.refl _)
    rw [← hadd] at hnear
    exact hnear
  | perform m o =>
    obtain ⟨r, hr, rfl⟩ := undergo_perform.1 hu
    obtain ⟨r', hr', -, hs⟩ := perform_shadows h hx hr
    exact ⟨r'.net, undergo_perform.2 ⟨r', hr', rfl⟩, hs⟩
  | step =>
    have hself := undergo_step_self hu
    obtain ⟨g, rfl, hg⟩ := h
    refine ⟨n₁.retimed g, ?_, shadows_of_self hg hself⟩
    unfold undergo at hu ⊢
    dsimp only at hu ⊢
    rw [next_retimed]
    cases hr : n.next with
    | none =>
      rw [hr] at hu
      cases hu
      rfl
    | some r =>
      rw [hr] at hu
      cases hu
      exact congrArg Except.ok (heed_retimed r.net g r.value.1 r.value.2)
  | tick =>
    obtain ⟨g, rfl, hg⟩ := h
    cases hu
    exact ⟨_, rfl, shadows_tick hg⟩
  | split id sizes =>
    obtain ⟨g, rfl, hg⟩ := h
    cases hu
    exact ⟨_, rfl, shadows_updateOwned hg id (fun t => t) (fun _ _ => rfl) fun _ _ _ ht => ht⟩
  | failCloses id count =>
    obtain ⟨g, rfl, hg⟩ := h
    cases hu
    refine ⟨_, rfl, shadows_updateOwned hg id (fun t => { t with closeFailures := count }) (fun _ _ => rfl) ?_⟩
    exact fun _ _ _ ht => ⟨fun _ => rfl, ht.interval, ht.elapsed⟩

/-- **Every course that does not close the endpoint.** -/
theorem course_shadows {hs : List Happening} (h : Shadows even i n n') (hx : ∀ x ∈ hs, x.closes i = false)
    (hc : n.course hs = .ok n₁) : ∃ n₁', n'.course hs = .ok n₁' ∧ Shadows even i n₁ n₁' := by
  induction hs generalizing n n' with
  | nil =>
    cases hc
    exact ⟨n', rfl, h⟩
  | cons x hs ih =>
    obtain ⟨n₂, hu, hrest⟩ := course_cons.1 hc
    obtain ⟨n₂', hu', h₂⟩ := undergo_shadows h (hx x List.mem_cons_self) hu
    obtain ⟨n₁', hrest', h₁⟩ := ih h₂ (fun y hy => hx y (List.mem_cons_of_mem x hy)) hrest
    exact ⟨n₁', course_cons.2 ⟨n₂', hu', hrest'⟩, h₁⟩

/-! ## Intervals -/

/-- The endpoint is open all along a course. -/
def OpenAlong (i : Nat) (n : Net) (hs : List Happening) : Prop :=
  ∀ before after n₁, hs = before ++ after → n.course before = .ok n₁ → (n₁.pcb i).state ≠ .closed

theorem lt_of_open (h : (n.pcb i).state ≠ .closed) : i < n.pcbs.size := by
  refine Nat.lt_of_not_ge fun hge => h ?_
  rw [pcb_of_size_le hge]

/-- An operation that does not set the poll timer lets it stand still. -/
theorem perform_timer {o : PcbOp} {r : Result o.Reply} (hi : i < n.pcbs.size) (hi' : i < r.net.pcbs.size)
    (hx : (Happening.perform m o).winds i = false) (h : n.perform m o = .ok r) :
    (r.net.pcb i).pollInterval = (n.pcb i).pollInterval ∧ (r.net.pcb i).pollElapsed = (n.pcb i).pollElapsed := by
  have hkept : r.net.retimed (fun j => (n.pcb j).timing) = r.net →
      (r.net.pcb i).pollInterval = (n.pcb i).pollInterval ∧ (r.net.pcb i).pollElapsed = (n.pcb i).pollElapsed := by
    intro hself
    have htiming := timing_eq hself hi'
    exact ⟨congrArg Timing.pollInterval htiming, congrArg Timing.pollElapsed htiming⟩
  have halike : untimed o = true → r.net.retimed (fun j => (n.pcb j).timing) = r.net := by
    intro ho
    have hself := perform_retimed n (fun j => (n.pcb j).timing) m o ho
    rw [retimed_self, h] at hself
    exact (congrArg Result.net (Except.ok.inj hself)).symm
  cases o with
  | connect addr =>
    change n.connect m addr = .ok r at h
    rcases connect_retimed n (fun _ => ⟨0, 0, 0⟩) m addr with ⟨-, hself⟩ | ⟨l, r', hr', -, hold, -, -⟩
    · exact hkept (hself r h)
    · cases h.symm.trans hr'
      exact ⟨congrArg Timing.pollInterval (hold i hi), congrArg Timing.pollElapsed (hold i hi)⟩
  | close =>
    cases h
    by_cases hfail : 0 < (n.pcb m).closeFailures
    · show ((n.close m).1.pcb i).pollInterval = _ ∧ ((n.close m).1.pcb i).pollElapsed = _
      rw [close_of_failures hfail]
      exact pcb_update_elim (P := fun p => p.pollInterval = _ ∧ p.pollElapsed = _) ⟨rfl, rfl⟩ fun _ => ⟨rfl, rfl⟩
    · refine hkept ?_
      have hself := close_retimed n (fun j => (n.pcb j).timing) (m := m) rfl hfail
      rw [retimed_self] at hself
      exact (congrArg Prod.fst hself).symm
  | setPollInterval k =>
    have him : i ≠ m := by
      intro him
      simp [Happening.winds, him] at hx
    cases h
    dsimp only
    rw [pcb_update_of_ne him]
    exact ⟨rfl, rfl⟩
  | _ => exact hkept (halike rfl)

theorem updateOwned_timer (id : Handle) {f : Pcb → Pcb}
    (hf : ∀ p, (f p).pollInterval = p.pollInterval ∧ (f p).pollElapsed = p.pollElapsed) :
    ((n.updateOwned id f).1.pcb i).pollInterval = (n.pcb i).pollInterval ∧
      ((n.updateOwned id f).1.pcb i).pollElapsed = (n.pcb i).pollElapsed := by
  unfold updateOwned
  split
  · exact pcb_update_elim (P := fun p => p.pollInterval = _ ∧ p.pollElapsed = _) ⟨rfl, rfl⟩ fun _ => hf _
  · exact ⟨rfl, rfl⟩

/-- Between the beats a poll timer that is not set stands still. -/
theorem undergo_timer (hi : i < n.pcbs.size) (hi₁ : i < n₁.pcbs.size) (hx : x.winds i = false) (ht : x ≠ .tick)
    (h : n.undergo x = .ok n₁) :
    (n₁.pcb i).pollInterval = (n.pcb i).pollInterval ∧ (n₁.pcb i).pollElapsed = (n.pcb i).pollElapsed := by
  cases x with
  | add =>
    cases h
    rw [pcb_add, if_neg (Nat.ne_of_lt hi)]
    exact ⟨rfl, rfl⟩
  | perform m o =>
    obtain ⟨r, hp, rfl⟩ := undergo_perform.1 h
    exact perform_timer hi hi₁ hx hp
  | step =>
    have htiming := timing_eq (undergo_step_self h) hi₁
    exact ⟨congrArg Timing.pollInterval htiming, congrArg Timing.pollElapsed htiming⟩
  | tick => exact absurd rfl ht
  | split id sizes =>
    cases h
    exact updateOwned_timer id fun _ => ⟨rfl, rfl⟩
  | failCloses id count =>
    cases h
    exact updateOwned_timer id fun _ => ⟨rfl, rfl⟩

theorem Pcb.beat_of_open (hs : p.state ≠ .closed) (hk : p.pollElapsed < p.pollInterval) :
    Pcb.beat p = if p.pollElapsed + 1 < p.pollInterval then ({ p with pollElapsed := p.pollElapsed + 1 }, false)
      else ({ p with pollElapsed := 0 }, true) := by
  have hruns : ¬ (p.pollInterval = 0 || p.state = .closed) = true := by
    have hpos : p.pollInterval ≠ 0 := by omega
    simp [hs, hpos]
  unfold Pcb.beat
  rw [if_neg hruns]

/-- A beat of the timer of an open endpoint. -/
theorem tick_timer (hs : (n.pcb i).state ≠ .closed) (hk : (n.pcb i).pollElapsed < (n.pcb i).pollInterval) :
    (n.tick.1.pcb i).pollInterval = (n.pcb i).pollInterval ∧
      (n.tick.1.pcb i).pollElapsed = ((n.pcb i).pollElapsed + 1) % (n.pcb i).pollInterval := by
  rw [pcb_tick, Pcb.beat_of_open hs hk]
  split
  · rename_i hlt
    exact ⟨rfl, (Nat.mod_eq_of_lt hlt).symm⟩
  · have hend : (n.pcb i).pollElapsed + 1 = (n.pcb i).pollInterval := by omega
    exact ⟨rfl, by rw [hend, Nat.mod_self]⟩

theorem told_tick_eq (hs : (n.pcb i).state ≠ .closed) (hk : (n.pcb i).pollElapsed < (n.pcb i).pollInterval) :
    n.told i .tick = if (n.pcb i).pollInterval ∣ (n.pcb i).pollElapsed + 1 then (n.pcb i).owner else none := by
  unfold told
  dsimp only
  rw [Pcb.beat_of_open hs hk]
  by_cases hlt : (n.pcb i).pollElapsed + 1 < (n.pcb i).pollInterval
  · rw [if_pos hlt, if_neg (Nat.not_dvd_of_pos_of_lt (Nat.succ_pos _) hlt)]
    rfl
  · have hend : (n.pcb i).pollElapsed + 1 = (n.pcb i).pollInterval := by omega
    rw [if_neg hlt, hend, if_pos (Nat.dvd_refl _)]
    rfl

/-- An endpoint that is open all along is so from the next happening on. -/
theorem OpenAlong.tail {hs : List Happening} (ho : OpenAlong i n (x :: hs)) (hu : n.undergo x = .ok n₁) :
    OpenAlong i n₁ hs := by
  intro before after n₂ heq hbefore
  exact ho (x :: before) after n₂ (by rw [heq]; rfl) (course_cons.2 ⟨n₁, hu, hbefore⟩)

theorem OpenAlong.head {hs : List Happening} (ho : OpenAlong i n hs) : (n.pcb i).state ≠ .closed := ho [] hs n rfl rfl

/-- The interval of an open endpoint is what it was set to. -/
theorem course_interval {hs : List Happening} (hx : ∀ x ∈ hs, x.winds i = false) (ho : OpenAlong i n hs)
    (hc : n.course hs = .ok n') : (n'.pcb i).pollInterval = (n.pcb i).pollInterval := by
  induction hs generalizing n with
  | nil =>
    cases hc
    rfl
  | cons x hs ih =>
    obtain ⟨n₁, hu, hrest⟩ := course_cons.1 hc
    have ho₁ := ho.tail hu
    have hone : (n₁.pcb i).pollInterval = (n.pcb i).pollInterval := by
      by_cases ht : x = .tick
      · subst ht
        cases hu
        obtain ⟨k, hk⟩ := Pcb.beat_fst (n.pcb i)
        rw [pcb_tick, hk]
      · exact (undergo_timer (lt_of_open ho.head) (lt_of_open ho₁.head) (hx x List.mem_cons_self) ht hu).1
    exact (ih (fun y hy => hx y (List.mem_cons_of_mem x hy)) ho₁ hrest).trans hone

/-- How far the timer has come after a course during which its endpoint is open. -/
theorem course_timer {hs : List Happening} (hx : ∀ x ∈ hs, x.winds i = false) (ho : OpenAlong i n hs)
    (hk : (n.pcb i).pollElapsed < (n.pcb i).pollInterval) (hc : n.course hs = .ok n') :
    (n'.pcb i).pollInterval = (n.pcb i).pollInterval ∧
      (n'.pcb i).pollElapsed = ((n.pcb i).pollElapsed + hs.count .tick) % (n.pcb i).pollInterval := by
  induction hs generalizing n with
  | nil =>
    cases hc
    exact ⟨rfl, (Nat.mod_eq_of_lt hk).symm⟩
  | cons x hs ih =>
    obtain ⟨n₁, hu, hrest⟩ := course_cons.1 hc
    have ho₁ := ho.tail hu
    have hx₁ : ∀ y ∈ hs, y.winds i = false := fun y hy => hx y (List.mem_cons_of_mem x hy)
    by_cases ht : x = .tick
    · subst ht
      cases hu
      obtain ⟨hinterval, helapsed⟩ := tick_timer ho.head hk
      have hk₁ : (n.tick.1.pcb i).pollElapsed < (n.tick.1.pcb i).pollInterval := by
        rw [hinterval, helapsed]
        exact Nat.mod_lt _ (by omega)
      obtain ⟨hinterval', helapsed'⟩ := ih hx₁ ho₁ hk₁ hrest
      refine ⟨hinterval'.trans hinterval, ?_⟩
      rw [helapsed', hinterval, helapsed, Nat.mod_add_mod, List.count_cons_self]
      congr 1
      omega
    · obtain ⟨hinterval, helapsed⟩ :=
        undergo_timer (lt_of_open ho.head) (lt_of_open ho₁.head) (hx x List.mem_cons_self) ht hu
      obtain ⟨hinterval', helapsed'⟩ := ih hx₁ ho₁ (by rw [hinterval, helapsed]; exact hk) hrest
      rw [List.count_cons_of_ne ht, ← hinterval, ← helapsed]
      exact ⟨hinterval', helapsed'⟩

/-- A poll timer that runs has not come to its end. -/
def Pcb.Wound (p : Pcb) : Prop := p.pollInterval = 0 ∨ p.pollElapsed < p.pollInterval

/-- **An open endpoint is polled once in every interval**, and never where the interval is 0. -/
theorem course_polls {hs : List Happening} (hx : ∀ x ∈ hs, x.winds i = false) (ho : OpenAlong i n hs)
    (hk : Pcb.Wound (n.pcb i)) (hc : n.course hs = .ok n') :
    n'.told i .tick =
      if (n.pcb i).pollInterval ∣ (n.pcb i).pollElapsed + hs.count .tick + 1 then (n'.pcb i).owner else none := by
  have hopen : (n'.pcb i).state ≠ .closed := ho hs [] n' (List.append_nil hs).symm hc
  rcases hk with hzero | hk
  · have hinterval := course_interval hx ho hc
    rw [hzero] at hinterval
    unfold told Pcb.beat
    simp [hinterval, hzero]
  · obtain ⟨hinterval, helapsed⟩ := course_timer hx ho hk hc
    have hk' : (n'.pcb i).pollElapsed < (n'.pcb i).pollInterval := by
      rw [hinterval, helapsed]
      exact Nat.mod_lt _ (by omega)
    have hdvd : (n.pcb i).pollInterval ∣ ((n.pcb i).pollElapsed + hs.count .tick) % (n.pcb i).pollInterval + 1 ↔
        (n.pcb i).pollInterval ∣ (n.pcb i).pollElapsed + hs.count .tick + 1 := by
      rw [Nat.dvd_iff_mod_eq_zero, Nat.dvd_iff_mod_eq_zero, Nat.mod_add_mod]
    rw [told_tick_eq hopen hk', hinterval, helapsed]
    simp only [hdvd]

/-- The endpoint is open along the same courses. -/
theorem Shadows.openAlong (h : Shadows even i n n') {hs : List Happening} (hx : ∀ x ∈ hs, x.closes i = false)
    (hc : n.course hs = .ok n₁) (ho : OpenAlong i n hs) : OpenAlong i n' hs := by
  intro before after n₂' heq hbefore
  have hprefix : ∃ n₂, n.course before = .ok n₂ := by
    unfold course at hc ⊢
    rw [heq, List.foldlM_append] at hc
    cases hb : before.foldlM undergo n with
    | error e => rw [hb] at hc; cases hc
    | ok n₂ => exact ⟨n₂, rfl⟩
  obtain ⟨n₂, hn₂⟩ := hprefix
  have hx' : ∀ x ∈ before, x.closes i = false := fun x hm => hx x (heq ▸ List.mem_append_left after hm)
  obtain ⟨n₃, hn₃, g, rfl, -⟩ := course_shadows h hx' hn₂
  cases hn₃.symm.trans hbefore
  rw [retimed_state]
  exact ho before after n₂ heq hn₂

/-- An endpoint is given another timing. -/
theorem update_eq_retimed {f : Pcb → Pcb} (h : f (n.pcb i) = (n.pcb i).retimed s) :
    n.update i f = n.retimed (Function.update (fun j => (n.pcb j).timing) i s) := by
  refine ext_pcb rfl (by simp) (fun j => ?_) rfl rfl rfl rfl
  rcases Nat.lt_or_ge j n.pcbs.size with hlt | hge
  · rw [pcb_retimed hlt]
    by_cases hj : j = i
    · subst hj
      rw [pcb_update_self hlt, Function.update_self, h]
    · rw [pcb_update_of_ne hj, Function.update_of_ne hj]
      rfl
  · rw [pcb_of_size_le (by simpa using hge), pcb_of_size_le (by simpa using hge)]

end Net

end Conduit.Loopback
