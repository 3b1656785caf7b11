import Conduit.Proofs.Loopback.Edits

/-!
# Closed endpoints

An endpoint that was joined to another and is closed belongs to nobody, and nobody is told of what still comes for it. It
stays closed, unless it was closed before the answer to its own open was settled: that answer opens it again.

* `Net.Spares`: what may happen to an endpoint on which nothing is operated.
* `Net.told`: whom a happening tells of what concerns an endpoint.
* `Net.AtRest`: an endpoint that is closed for good, as no answer is due to it.
* `Net.course_closed`: **a closed endpoint tells nobody anything, and stays closed exactly if no answer is due to it.**
* `Net.late_answer_reopens`: an answer that comes too late opens an endpoint that was aborted.
-/

namespace Conduit.Loopback

/-- An operation on the endpoint `i`. -/
def Happening.operates (i : Nat) : Happening → Bool
  | .perform m _ => m == i
  | _ => false

/-- A listen on the endpoint `i`. -/
def Happening.listens (i : Nat) : Happening → Bool
  | .perform m (.listen _) => m == i
  | _ => false

namespace Net

variable {n n' n'' : Net} {i m : Nat} {a : Action} {x : Happening}

/-! ## Endpoints on which nothing is operated -/

/-- What may happen to an endpoint on which nothing is operated: it gets no owner, no answer becomes due to it, and if none
was, it stays closed. -/
structure Spares (i : Nat) (n n' : Net) : Prop where
  size : n.pcbs.size ≤ n'.pcbs.size
  owner : (n.pcb i).owner = none → (n'.pcb i).owner = none
  closed : .connected i ∉ n.actions → (n.pcb i).state = .closed → (n'.pcb i).state = .closed
  actions : .connected i ∈ n'.actions → .connected i ∈ n.actions

theorem Spares.refl (i : Nat) (n : Net) : Spares i n n := ⟨Nat.le_refl _, id, fun _ => id, id⟩

theorem Spares.trans (h : Spares i n n') (h' : Spares i n' n'') : Spares i n n'' := by
  refine ⟨Nat.le_trans h.size h'.size, fun ho => h'.owner (h.owner ho), fun ha hs => ?_, fun ha => h.actions (h'.actions ha)⟩
  exact h'.closed (fun ha' => ha (h.actions ha')) (h.closed ha hs)

/-- The endpoint is the same. -/
theorem Spares.of_same (hsize : n.pcbs.size ≤ n'.pcbs.size) (hp : n'.pcb i = n.pcb i)
    (ha : .connected i ∈ n'.actions → .connected i ∈ n.actions) : Spares i n n' :=
  ⟨hsize, fun ho => hp ▸ ho, fun _ hs => hp ▸ hs, ha⟩

theorem spares_update {f : Pcb → Pcb} (ho : i = m → (n.pcb i).owner = none → (f (n.pcb i)).owner = none)
    (hs : i = m → (n.pcb i).state = .closed → (f (n.pcb i)).state = .closed) : Spares i n (n.update m f) := by
  refine ⟨by simp, fun h => ?_, fun _ h => ?_, id⟩
  · exact pcb_update_elim (P := fun p => p.owner = none) h fun hi => ho hi h
  · exact pcb_update_elim (P := fun p => p.state = .closed) h fun hi => hs hi h

/-- A change that keeps the state, and gives the endpoint no other owner. -/
theorem spares_minor {f : Pcb → Pcb} (hf : ∀ p, (f p).state = p.state ∧ ((f p).owner = p.owner ∨ (f p).owner = none)) :
    Spares i n (n.update m f) := by
  refine spares_update (fun _ hn => ?_) fun _ hs => (hf _).1.trans hs
  rcases (hf (n.pcb i)).2 with h | h
  · exact h.trans hn
  · exact h

theorem spares_pend (ha : a ≠ .connected i) : Spares i n (n.pend a) := by
  refine .of_same (Nat.le_refl _) rfl fun hmem => ?_
  rw [actions_pend, List.mem_append, List.mem_singleton] at hmem
  exact hmem.resolve_right (Ne.symm ha)

theorem spares_release (n : Net) (m : Nat) : Spares i n (n.release m) := by
  obtain ⟨ls, hr⟩ := n.release_eq m
  have h : Spares i { n with listeners := ls } (({ n with listeners := ls } : Net).update m Pcb.released) :=
    spares_update (fun _ _ => rfl) fun _ _ => rfl
  rw [hr]
  exact ⟨h.size, h.owner, h.closed, h.actions⟩

theorem spares_abort (n : Net) (m : Nat) : Spares i n (n.abort m) := by
  unfold abort resetPeer
  split
  · split
    · exact (spares_pend (by simp)).trans (spares_release _ m)
    · exact spares_release n m
  · exact spares_release n m

/-- Whatever is done with another endpoint. -/
theorem Edit.spares (h : n.Edit m n') (him : i ≠ m) (hi : i < n.pcbs.size) : Spares i n n' := by
  have hupdate : ∀ f, Spares i n (n.update m f) := fun f =>
    spares_update (fun h => absurd h him) fun h => absurd h him
  cases h with
  | minor | opens | attaches | detaches => exact hupdate _
  | ports => exact .of_same (Nat.le_refl _) rfl id
  | ends => exact spares_release n m
  | resets k => exact spares_pend (by simp)
  | joins p hp hm hs listener =>
    have hadd : Spares i n (n.add p).2 := by
      refine .of_same (by simp [add]) ?_ id
      rw [pcb_add, if_neg (Nat.ne_of_lt hi)]
    have hjoined : Spares i n ((n.add p).2.update m fun q => { q with peer := some n.pcbs.size }) :=
      hadd.trans (spares_update (fun h => absurd h him) fun h => absurd h him)
    exact (hjoined.trans (spares_pend (by simp [Ne.symm him]))).trans (spares_pend (by simp))

theorem Edits.spares (h : Edits m n n') (him : i ≠ m) (hi : i < n.pcbs.size) : Spares i n n' := by
  induction h with
  | refl => exact .refl i _
  | step h _ ih =>
    have hspares := h.spares him hi
    exact hspares.trans (ih (Nat.lt_of_lt_of_le hi hspares.size))

/-- An action is settled: only the answer to its own open could open the endpoint. -/
theorem settle_spares {rest : List Action} (ha : n.actions = a :: rest) :
    Spares i n ({ n with actions := rest }.settle a).1 := by
  have hrest : Spares i n { n with actions := rest } :=
    .of_same (Nat.le_refl _) rfl fun hmem => ha ▸ List.mem_cons_of_mem a hmem
  cases a with
  | connected k =>
    refine ⟨by simp [settle], fun ho => ?_, fun hnot hs => ?_, hrest.actions⟩
    · exact pcb_update_elim (P := fun p => p.owner = none) ho fun _ => ho
    · refine pcb_update_elim (P := fun p => p.state = .closed) hs fun hi => ?_
      rw [ha, hi] at hnot
      exact absurd List.mem_cons_self hnot
  | sent k len => exact hrest
  | accept listener new => exact hrest
  | reset k =>
    have hends := hrest.trans (spares_release { n with actions := rest } k)
    refine ⟨by simpa [settle] using hends.size, fun ho => ?_, fun hnot hs => ?_, hends.actions⟩
    · exact pcb_update_elim (P := fun p => p.owner = none) (hends.owner ho) fun hi => hi ▸ ho
    · have hclosed := hends.closed hnot hs
      exact pcb_update_elim (P := fun p => p.state = .closed) hclosed fun _ => hclosed

theorem post_spares (n : Net) (j k len : Nat) (unread : Bool) : Spares i n (n.post j k len unread) := by
  have hsent : Spares i n (n.depart j len) := spares_minor fun _ => ⟨rfl, .inl rfl⟩
  have hpending := hsent.trans (spares_pend (a := .sent j len) (by simp))
  exact hpending.trans (spares_minor fun _ => ⟨rfl, .inl rfl⟩)

theorem sendFin_spares (n : Net) (j k : Nat) : Spares i n (n.sendFin j k).net := by
  have hspoken : Spares i n (n.update j fun p => { p with
      finSent := true
      state := afterFinSent p.state
      owner := if afterFinSent p.state = .closed then none else p.owner }) := by
    refine spares_update (fun _ ho => ?_) fun _ hs => ?_
    · simp [ho]
    · simp [hs, afterFinSent]
  have hheard := hspoken.trans (spares_update (m := k) (f := fun p => { p with
    finReceived := true, state := afterFinReceived p.state }) (fun _ ho => ho) fun _ hs => by simp [hs, afterFinReceived])
  unfold sendFin
  dsimp only
  split <;> exact hheard

/-- A step, before it is heeded. -/
theorem next_spares {res : Result (Nat × Delivery)} (h : n.next = some res) : Spares i n res.net := by
  cases next_stepped h with
  | settles ha => exact settle_spares ha
  | segment hn hp hs cursor =>
    obtain ⟨len, unread, hnet, -⟩ := sendSegment_posts hs
    have hsent := hnet ▸ post_spares (i := i) n _ _ len unread
    exact hsent.trans (.of_same (Nat.le_refl _) rfl id)
  | goodbye hn hp cursor => exact (sendFin_spares n _ _).trans (.of_same (Nat.le_refl _) rfl id)

theorem heed_spares (n : Net) (k : Nat) (d : Delivery) : Spares i n (n.heed k d) := by
  cases d with
  | accept new =>
    unfold heed
    dsimp only
    split
    · exact spares_abort n new
    · exact .refl i n
  | reset => exact spares_minor fun _ => ⟨rfl, .inr rfl⟩
  | nothing => exact .refl i n
  | event e =>
    cases e with
    | recv data =>
      unfold heed
      dsimp only
      split
      · exact spares_minor fun _ => ⟨rfl, .inl rfl⟩
      · exact .refl i n
    | _ => exact .refl i n

theorem spares_updateOwned (n : Net) (id : Handle) {f : Pcb → Pcb}
    (hf : ∀ p, (f p).state = p.state ∧ (f p).owner = p.owner) : Spares i n (n.updateOwned id f).1 := by
  unfold updateOwned
  split
  · exact spares_minor fun p => ⟨(hf p).1, .inl (hf p).2⟩
  · exact .refl i n

/-- **Whatever happens, if it is no operation on the endpoint.** -/
theorem undergo_spares (hi : i < n.pcbs.size) (hx : x.operates i = false) (h : n.undergo x = .ok n') : Spares i n n' := by
  cases x with
  | add =>
    cases h
    refine .of_same (by simp [add]) ?_ fun ha => ha
    rw [pcb_add, if_neg (Nat.ne_of_lt hi)]
  | perform m o =>
    have him : i ≠ m := by
      intro him
      simp [Happening.operates, him] at hx
    obtain ⟨res, hp, rfl⟩ := undergo_perform.1 h
    exact (perform_edits hp).spares him hi
  | step =>
    unfold undergo at h
    dsimp only at h
    split at h
    · cases h
      exact .refl i n
    · rename_i res hres
      cases h
      exact (next_spares hres).trans (heed_spares _ _ _)
  | tick =>
    cases h
    obtain ⟨k, hk⟩ := Pcb.beat_fst (n.pcb i)
    have hp : n.tick.1.pcb i = { n.pcb i with pollElapsed := k } := pcb_tick.trans hk
    have hsize : n.pcbs.size ≤ n.tick.1.pcbs.size := by simp [tick]
    exact ⟨hsize, fun ho => hp ▸ ho, fun _ hs => hp ▸ hs, fun ha => ha⟩
  | split id sizes =>
    cases h
    exact spares_updateOwned n id fun _ => ⟨rfl, rfl⟩
  | failCloses id count =>
    cases h
    exact spares_updateOwned n id fun _ => ⟨rfl, rfl⟩

/-! ## Who is told -/

/-- Whom a happening tells of something that concerns the endpoint `i`: the owner that a step finds when it brings
something to it, or that a beat finds when it is due. -/
def told (n : Net) (i : Nat) : Happening → Option Handle
  | .step =>
    match n.next with
    | some ⟨_, _, _, .nothing⟩ | none => none
    | some ⟨net, _, k, _⟩ => if k = i then (net.pcb i).owner else none
  | .tick => if (Pcb.beat (n.pcb i)).2 then (n.pcb i).owner else none
  | _ => none

/-- A beat tells nobody else. -/
theorem mem_tick_iff (n : Net) (id : Handle) : id ∈ n.tick.2 ↔ ∃ i, i < n.pcbs.size ∧ n.told i .tick = some id := by
  have hbeat : ∀ p : Pcb, (if (Pcb.beat p).2 then (Pcb.beat p).1.owner else none) = if (Pcb.beat p).2 then p.owner else none := by
    intro p
    obtain ⟨k, hk⟩ := Pcb.beat_fst p
    rw [hk]
  have hpcb : ∀ i, (h : i < n.pcbs.size) → n.pcb i = n.pcbs[i] := by
    intro i h
    simp [pcb, Array.getD_eq_getD_getElem?, Array.getElem?_eq_getElem h]
  simp only [tick, told, List.mem_filterMap, Array.mem_toList_iff]
  constructor
  · rintro ⟨beat, hmem, hp⟩
    obtain ⟨p, hp', rfl⟩ := Array.mem_map.1 hmem
    obtain ⟨i, hi, rfl⟩ := Array.mem_iff_getElem.1 hp'
    refine ⟨i, hi, ?_⟩
    rw [hpcb i hi, ← hbeat]
    exact hp
  · rintro ⟨i, hi, hp⟩
    rw [hpcb i hi, ← hbeat] at hp
    exact ⟨_, Array.mem_map_of_mem (Array.getElem_mem hi), hp⟩

/-- Nobody is told of what concerns an endpoint that belongs to nobody. -/
theorem told_of_unowned (ho : (n.pcb i).owner = none) (x : Happening) : n.told i x = none := by
  cases x with
  | step =>
    unfold told
    dsimp only
    split
    · rfl
    · rfl
    · rename_i hnext
      have ho' := (next_spares (i := i) hnext).owner ho
      split
      · exact ho'
      · rfl
  | tick =>
    unfold told
    rw [ho, ite_self]
  | _ => rfl

/-! ## Endpoints at rest -/

/-- An endpoint at rest: it was joined and is closed, and no answer is due to it. -/
structure AtRest (i : Nat) (n : Net) : Prop where
  ended : (n.pcb i).Ended
  undue : .connected i ∉ n.actions

theorem lt_of_ended (h : (n.pcb i).Ended) : i < n.pcbs.size := by
  refine Nat.lt_of_not_ge fun hge => ?_
  have hpeer := h.2
  rw [pcb_of_size_le hge] at hpeer
  cases hpeer

theorem write_of_closed (h : (n.pcb i).state = .closed) (data : Bytes) : n.write i data = (n, .error .closed) := by
  simp [write, h]

/-- A closed endpoint has no write half that could be shut. -/
theorem shutdown_spares (h : (n.pcb i).state = .closed) (dir : Direction) : Spares i n (n.shutdown i dir).1 := by
  have hread : Spares i n (n.update i fun p => { p with rxClosed := true }) := spares_minor fun _ => ⟨rfl, .inl rfl⟩
  have hclosed : ((n.update i fun p => { p with rxClosed := true }).pcb i).state = .closed :=
    pcb_update_elim (P := fun p => p.state = .closed) h fun _ => h
  cases dir with
  | read => exact hread
  | write =>
    simp [shutdown, h]
    exact .refl i n
  | both =>
    simp [shutdown, hclosed]
    exact hread

theorem bind_spares {addr : Endpoint} {res : Result Outcome} (h : n.bind m addr = .ok res) : Spares i n res.net := by
  unfold bind at h
  split at h
  · cases ha : n.allocPort with
    | error => rw [ha] at h; cases h
    | ok r =>
      rw [ha] at h
      cases h
      obtain ⟨k, hk⟩ := allocPort_ok ha
      have hports : Spares i n r.2 := hk ▸ .of_same (Nat.le_refl _) rfl id
      exact hports.trans (spares_minor fun _ => ⟨rfl, .inl rfl⟩)
  · split at h <;> cases h
    · exact .refl i n
    · exact spares_minor fun _ => ⟨rfl, .inl rfl⟩

/-- A closed endpoint is closed by an abort. -/
theorem close_spares (h : (n.pcb i).state = .closed) : Spares i n (n.close i).1 := by
  unfold close
  simp only [h]
  split
  · exact spares_minor fun _ => ⟨rfl, .inl rfl⟩
  · have hread : Spares i n (n.update i fun p => { p with rxClosed := true }) := spares_minor fun _ => ⟨rfl, .inl rfl⟩
    exact hread.trans (spares_abort _ i)

/-- To a joined endpoint that is closed nothing can be attached. -/
theorem attach_spares (he : (n.pcb i).Ended) (id : Handle) : Spares i n (n.attach i id) := by
  obtain ⟨hclosed, hpeer⟩ := he
  have hsame : (if (n.pcb i).state ≠ .closed || (n.pcb i).peer.isNone then { n.pcb i with owner := some id } else n.pcb i)
      = n.pcb i := by
    simp [hclosed, Option.isNone_iff_eq_none, Option.isSome_iff_ne_none.1 hpeer]
  refine spares_update (fun _ hn => ?_) fun _ hs => ?_
  · rw [hsame]
    exact hn
  · rw [hsame]
    exact hs

/-- Its own operations spare a joined endpoint that is closed as well, but for a listen. -/
theorem perform_spares {o : PcbOp} {res : Result o.Reply} (he : (n.pcb i).Ended)
    (ho : (Happening.perform i o).listens i = false) (h : n.perform i o = .ok res) : Spares i n res.net := by
  cases o with
  | listen => simp [Happening.listens] at ho
  | bind addr => exact bind_spares h
  | connect addr =>
    change n.connect i addr = _ at h
    simp only [connect, he.2, Bool.or_true, if_true] at h
    cases h
    exact .refl i n
  | write data =>
    cases h
    show Spares i n (n.write i data).1
    rw [write_of_closed he.1]
    exact .refl i n
  | output | mss | sndbuf | sndqueuelen | nagleDisabled | localAddr | remoteAddr | state =>
    cases h
    exact .refl i n
  | recved k =>
    change (n.recved i k).map _ = _ at h
    unfold recved at h
    split at h
    · cases h
    · cases h
      exact spares_minor fun _ => ⟨rfl, .inl rfl⟩
  | close =>
    cases h
    exact close_spares he.1
  | shutdown dir =>
    cases h
    exact shutdown_spares he.1 dir
  | abort =>
    cases h
    exact spares_abort n i
  | setNagle | setPrio | setPollInterval =>
    cases h
    exact spares_minor fun _ => ⟨rfl, .inl rfl⟩
  | attach id =>
    cases h
    exact attach_spares he id
  | detach =>
    cases h
    exact spares_minor fun _ => ⟨rfl, .inr rfl⟩

/-- **An endpoint at rest stays so, whatever happens but a listen of its own.** -/
theorem AtRest.undergo (hr : AtRest i n) (hx : x.listens i = false) (h : n.undergo x = .ok n') : AtRest i n' := by
  have hspares : Spares i n n' := by
    cases hop : x.operates i with
    | false => exact undergo_spares (lt_of_ended hr.ended) hop h
    | true =>
      cases x with
      | perform m o =>
        obtain rfl : m = i := by simpa [Happening.operates] using hop
        obtain ⟨res, hp, rfl⟩ := undergo_perform.1 h
        exact perform_spares hr.ended hx hp
      | _ => cases hop
  have hgoes := undergo_goes h i
  have hjoined : (n'.pcb i).peer.isSome = true := by
    rw [hgoes.peer hr.ended.2]
    exact hr.ended.2
  exact ⟨⟨hspares.closed hr.undue hr.ended.1, hjoined⟩, fun ha => hr.undue (hspares.actions ha)⟩

/-! ## Answers that are due -/

theorem actions_release (n : Net) (m : Nat) : (n.release m).actions = n.actions := by
  obtain ⟨ls, hr⟩ := n.release_eq m
  rw [hr]
  rfl

theorem actions_abort (n : Net) (m : Nat) : ∃ more, (n.abort m).actions = n.actions ++ more := by
  unfold abort resetPeer
  rw [actions_release]
  split
  · split
    · exact ⟨_, rfl⟩
    · exact ⟨[], (List.append_nil _).symm⟩
  · exact ⟨[], (List.append_nil _).symm⟩

/-- A step settles the oldest action, and keeps all others. -/
theorem undergo_step_actions {rest : List Action} (ha : n.actions = a :: rest) :
    ∃ n' more, n.undergo .step = .ok n' ∧ n'.actions = rest ++ more ∧
      (∀ i, a = .connected i → i < n.pcbs.size → (n'.pcb i).state = .established) := by
  have hstep : n.undergo .step = .ok ((({ n with actions := rest } : Net).settle a).1.heed
      (({ n with actions := rest } : Net).settle a).2.1 (({ n with actions := rest } : Net).settle a).2.2) := by
    simp only [undergo, next, ha]
  cases a with
  | connected k =>
    refine ⟨_, [], hstep, (List.append_nil rest).symm, ?_⟩
    rintro i ⟨⟩ hi
    exact congrArg Pcb.state (pcb_update_self (n := { n with actions := rest }) hi)
  | sent k len => exact ⟨_, [], hstep, (List.append_nil rest).symm, nofun⟩
  | accept listener new =>
    have hheed : ∃ more, (if (({ n with actions := rest } : Net).pcb listener).owner.isNone then
        ({ n with actions := rest } : Net).abort new else { n with actions := rest }).actions = rest ++ more := by
      split
      · exact actions_abort _ new
      · exact ⟨[], (List.append_nil rest).symm⟩
    obtain ⟨more, hmore⟩ := hheed
    exact ⟨_, more, hstep, hmore, nofun⟩
  | reset k =>
    refine ⟨_, [], hstep, ?_, nofun⟩
    rw [List.append_nil]
    simp only [settle]
    split <;> exact actions_release _ k

/-- An answer that is due is settled in the end, and opens its endpoint. -/
theorem steps_open {before after : List Action} (hi : i < n.pcbs.size)
    (ha : n.actions = before ++ .connected i :: after) :
    ∃ n', n.course (List.replicate (before.length + 1) .step) = .ok n' ∧ (n'.pcb i).state = .established := by
  induction before generalizing n after with
  | nil =>
    obtain ⟨n', -, hstep, -, hopen⟩ := undergo_step_actions ha
    exact ⟨n', course_cons.2 ⟨n', hstep, rfl⟩, hopen i rfl hi⟩
  | cons a before ih =>
    obtain ⟨n₁, more, hstep, hrest, -⟩ := undergo_step_actions ha
    have hi₁ := Nat.lt_of_lt_of_le hi (undergo_spares hi rfl hstep).size
    replace hrest : n₁.actions = before ++ .connected i :: (after ++ more) := by
      rw [hrest]
      exact List.append_assoc before (.connected i :: after) more
    obtain ⟨n', hn', hopen⟩ := ih hi₁ hrest
    exact ⟨n', course_cons.2 ⟨n₁, hstep, hn'⟩, hopen⟩

/-! ## Courses -/

/-- Every endpoint is let go when it is closed. -/
theorem course_letGo {o : Options} {hs : List Happening} (h : ({ options := o } : Net).course hs = .ok n) (i : Nat) :
    (n.pcb i).LetGo :=
  course_keeps (P := fun n => ∀ i, (n.pcb i).LetGo) (fun _ _ _ hn hx i => (undergo_goes hx i).letGo (hn i))
    (fun _ _ => rfl) h i

theorem course_atRest {hs : List Happening} (hr : AtRest i n) (hx : ∀ x ∈ hs, x.listens i = false)
    (h : n.course hs = .ok n') : AtRest i n' :=
  course_keeps_of (P := AtRest i) (fun _ _ _ hr hx h => hr.undergo hx h) hr hx h

theorem course_spares {hs : List Happening} (hi : i < n.pcbs.size) (hx : ∀ x ∈ hs, x.operates i = false)
    (h : n.course hs = .ok n') : Spares i n n' := by
  refine course_keeps_of (P := Spares i n) (fun n₁ x n₂ h₁ hx hu => ?_) (.refl i n) hx h
  exact h₁.trans (undergo_spares (Nat.lt_of_lt_of_le hi h₁.size) hx hu)

/-- **An endpoint that was joined to another and is closed.** Whatever happens then that is no operation on it, it belongs
to nobody, and nobody is told of what still comes for it. It stays closed, and refuses every write, whatever happens but a
listen of its own, exactly if no answer to its own open is due when it is closed: such an answer opens it again. -/
theorem course_closed {o : Options} {hs : List Happening} (h : ({ options := o } : Net).course hs = .ok n)
    (he : (n.pcb i).Ended) :
    (∀ later n', (∀ x ∈ later, x.operates i = false) → n.course later = .ok n' →
      (n'.pcb i).owner = none ∧ ∀ x, n'.told i x = none) ∧
    ((∀ later n', (∀ x ∈ later, x.listens i = false) → n.course later = .ok n' →
      (n'.pcb i).state = .closed ∧ (n'.pcb i).owner = none ∧ (∀ x, n'.told i x = none) ∧
        ∀ data flags, n'.perform i (.write data flags) = .ok ⟨n', [], .error .closed⟩) ↔ .connected i ∉ n.actions) := by
  have hi := lt_of_ended he
  refine ⟨fun later n' hx hl => ?_, fun hstays hdue => ?_, fun hundue later n' hx hl => ?_⟩
  · have ho := (course_spares hi hx hl).owner (course_letGo h i he)
    exact ⟨ho, told_of_unowned ho⟩
  · obtain ⟨before, after, ha⟩ := List.append_of_mem hdue
    obtain ⟨n', hsteps, hopen⟩ := steps_open hi ha
    have hquiet : ∀ x ∈ List.replicate (before.length + 1) Happening.step, x.listens i = false := by
      intro x hx
      rw [List.eq_of_mem_replicate hx]
      rfl
    have hclosed := (hstays _ n' hquiet hsteps).1
    rw [hopen] at hclosed
    cases hclosed
  · have hrest : AtRest i n' := course_atRest ⟨he, hundue⟩ hx hl
    have hletGo := course_letGo (course_append h hl) i
    have ho := hletGo hrest.ended
    refine ⟨hrest.ended.1, ho, told_of_unowned ho, fun data flags => ?_⟩
    show Except.ok (⟨(n'.write i data).1, [], (n'.write i data).2⟩ : Result Outcome) = _
    rw [write_of_closed hrest.ended.1]

/-- A connection is opened, answered and aborted. -/
def departed : List Happening :=
  [.add, .perform 0 (.bind doorway), .perform 0 (.listen 1), .perform 0 (.attach ⟨0, 0⟩), .add, .perform 1 (.attach ⟨1, 0⟩),
    .perform 1 (.connect doorway), .step, .step, .perform 2 (.attach ⟨2, 0⟩), .perform 2 (.write [1, 2, 3] ⟨0⟩),
    .perform 1 .abort]

/-- What was written to it is lost on it, and its reset is still due to the other end. -/
theorem course_closed_departed :
    ∃ n, ({} : Net).course departed = .ok n ∧ (n.pcb 1).Ended ∧ (n.pcb 2).owner = some ⟨2, 0⟩ ∧
      ∀ later n', (∀ x ∈ later, x.listens 1 = false) → n.course later = .ok n' →
        (n'.pcb 1).state = .closed ∧ (n'.pcb 1).owner = none ∧ (∀ x, n'.told 1 x = none) ∧
          ∀ data flags, n'.perform 1 (.write data flags) = .ok ⟨n', [], .error .closed⟩ := by
  have hend : (({} : Net).course departed).toOption.map (fun n =>
      ((n.pcb 1).state, (n.pcb 1).peer, (n.pcb 2).owner, n.actions)) =
        some (.closed, some 2, some ⟨2, 0⟩, [.reset 2]) := by
    decide +kernel
  cases h : ({} : Net).course departed with
  | error e => simp [h, Except.toOption] at hend
  | ok n =>
    obtain ⟨hs, hp, ho, ha⟩ : _ ∧ _ ∧ _ ∧ _ := by simpa [h, Except.toOption] using hend
    have he : (n.pcb 1).Ended := ⟨hs, by rw [hp]; rfl⟩
    exact ⟨n, rfl, he, ho, (course_closed h he).2.2 (by rw [ha]; decide)⟩

/-- A connection is opened, and aborted before its open is answered. -/
def hasty : List Happening :=
  [.add, .perform 0 (.bind doorway), .perform 0 (.listen 1), .add, .perform 1 (.connect doorway), .perform 1 .abort]

/-- **An answer that comes too late** opens an endpoint that was joined to another, and closed by an abort: it takes data
again. -/
theorem late_answer_reopens :
    ∃ n n', ({} : Net).course hasty = .ok n ∧ (n.pcb 1).Ended ∧ (n.write 1 [120]).2 = .error .closed ∧
      n.course [.step] = .ok n' ∧ (n'.pcb 1).state = .established ∧ (n'.write 1 [120]).2 = .ok () := by
  have hend : (({} : Net).course hasty).toOption.bind (fun n => (n.course [.step]).toOption.map fun n' =>
      ((n.pcb 1).state, (n.pcb 1).peer, (n'.pcb 1).state, (n'.write 1 [120]).2)) =
        some (.closed, some 2, .established, .ok ()) := by
    decide +kernel
  cases h : ({} : Net).course hasty with
  | error e => simp [h, Except.toOption] at hend
  | ok n =>
    cases h' : n.course [.step] with
    | error e => simp [h, h', Except.toOption] at hend
    | ok n' =>
      obtain ⟨hs, hp, hs', hw⟩ : _ ∧ _ ∧ _ ∧ _ := by simpa [h, h', Except.toOption] using hend
      have hrefused := congrArg Prod.snd (write_of_closed hs [120])
      exact ⟨n, n', rfl, ⟨hs, by rw [hp]; rfl⟩, hrefused, h', hs', hw⟩

end Net

end Conduit.Loopback
