import Conduit.Proofs.Stack.Kin
import Conduit.Proofs.Stack.Rises

/-!
# What an application is told

-/

namespace Conduit

variable {H : Host}

namespace Stack

open Exec Slots

variable {K : H.Code → H.Code → Prop} {t : Handle} {hs : List Handle} {b : Behaviour H} {w w' u v : World H}
  {f : Option Segments} {n : Nat} {k k' i j : Nat} {busy : Bool} {free free' : Handle → Exec H Unit}

theorem Ready.mono (h : Ready K t hs busy f n w w') {m : Nat} (hm : n ≤ m) : Ready K t hs busy f m w w' := by
  refine ⟨⟨h.same, h.depth, h.depth', h.pumping, h.other, ?_⟩, h.pumps, h.rest⟩
  rcases h.own with ⟨hstands, hlen, hq⟩ | ⟨hgone, hq⟩
  · exact .inl ⟨hstands, Nat.le_trans hlen hm, hq⟩
  · exact .inr ⟨hgone, hq.mono hm⟩

/-- Deliveries begin or end. -/
theorem Raised.flagged (h : Raised K t hs f n w w') (hne : hs ≠ []) (p : Bool) :
    Raised K t hs f n { w with stack := { w.stack with pumping := p } } { w' with stack := { w'.stack with pumping := p } } :=
  ⟨⟨h.same.net, h.same.shared, h.same.memory⟩, h.depth, h.depth', rfl, h.other, h.own.imp_left
    fun ⟨⟨l, e, e', top, hstands⟩, hrest⟩ => ⟨⟨l, e, e', top, hstands.congr rfl (fun _ _ => rfl) hne⟩, hrest⟩⟩

theorem not_busy {s : Slots H} (hd : s.depth = 0) (hp : s.pumping = false) : (0 < s.depth || s.pumping) = false := by
  rw [hd, hp]
  rfl

theorem pump_drains {A : Answers H} (h : (0 < w.stack.depth || w.stack.pumping) = false) : pump b A free k w =
    (drain b A free k >>= fun _ => modifySlots fun s => { s with pumping := false })
      { w with stack := { w.stack with pumping := true } } := by
  unfold pump
  rw [bind_ok (getSlots_eq w), h]
  rfl

/-- Some of the events that wait are left. -/
theorem Ready.left (h : Ready K t hs true f n w w') (hne : hs ≠ []) {m : Nat} {qs qs' : List (Queued H)}
    (hown : (∃ l e e' top, Standing K t hs f w.stack w'.stack l e e' top) ∧ hs.length ≤ m ∧ Backlog K hs 0 qs qs' ∨
      (w.stack.find? t = none ∧ ∀ z ∈ hs ++ [t], w'.stack.find? z = none) ∧ Backlog K hs m qs qs') :
    Ready K t hs true f m { w with stack := { w.stack with queue := qs } }
      { w' with stack := { w'.stack with queue := qs' } } :=
  ⟨⟨⟨h.same.net, h.same.shared, h.same.memory⟩, h.depth, h.depth', h.pumping, h.other, hown.imp_left
    fun ⟨⟨l, e, e', top, hstands⟩, hrest⟩ => ⟨⟨l, e, e', top, hstands.congr rfl (fun _ _ => rfl) hne⟩, hrest⟩⟩, h.pumps,
    fun hc => nomatch hc⟩

/-- The last event of a connection that is gone, on its way to another, is dropped. -/
theorem deliver_litter {q : Queued H} {A : Answers H} (hq : Litter hs q) (hgone : ∀ z ∈ hs, w.stack.find? z = none) :
    deliver b A free q w = .ok () w := by
  obtain ⟨z, hz, r, hev, hroute⟩ := hq
  obtain ⟨source, _, _⟩ := q
  obtain rfl := hev
  obtain rfl := hroute
  have hlookup : lookup z w = .ok none w := congrArg (EStateM.Result.ok · w) (hgone z hz)
  simp only [deliver, deliverToLayer, withLayer, bind_assoc]
  rw [bind_ok hlookup]
  rfl

/-- What was out has been taken. -/
theorem Ready.taken (h : Ready K t hs true f n w w') (hne : hs ≠ []) (hf : ∀ r, f = some r → r.advance r.size = .empty)
    {A A' : Answers H} : Follows (settleRecv b A free t (.ok ())) (settleRecv b A' free' (hs.headD t) (.ok ())) w w'
      fun _ u _ v => Ready K t hs true none n u v := by
  rcases h.own with ⟨⟨l, e, e', top, hstands⟩, hrest⟩ | ⟨⟨hgone, hgone'⟩, hrest⟩
  · obtain ⟨z, zs, rfl⟩ := List.exists_cons_of_ne_nil hne
    obtain ⟨ez, name, hez, hl, -⟩ := hstands.pile.1
    refine follows_ok (settleRecv_drained hstands.own.find? hstands.own.layer hstands.drained hf)
      (settleRecv_handsOn hez hl) ⟨⟨⟨h.same.net, h.same.shared, h.same.memory⟩, h.depth, h.depth', h.pumping,
        fun x hx hx' => ?_, .inl ⟨⟨l, { e with layer := some (.plain l) }, e', top, ?_⟩, hrest⟩⟩, h.pumps, nofun⟩
    · show Option.Rel _ ((w.stack.update t _).find? x) _
      rw [find?_update_of_ne hx]
      exact h.other x hx hx'
    · refine ⟨⟨?_, rfl, hstands.own.inner, hstands.own.outer⟩, hstands.outer, hstands.base, hstands.drained,
        hstands.pollInterval, hstands.pile, hstands.uppermost, ?_⟩
      · show (w.stack.update t _).find? t = _
        rw [find?_update_self, hstands.own.find?]
        rfl
      · exact ⟨hstands.known.callbacks, hstands.known.epoch, hstands.known.pollInterval⟩
  · exact follows_ok (settleRecv_absent hgone) (settleRecv_absent (hgone' _ (List.mem_append_left _ (headD_mem hne))))
      ⟨⟨h.same, h.depth, h.depth', h.pumping, h.other, .inr ⟨⟨hgone, hgone'⟩, hrest⟩⟩, h.pumps, nofun⟩

/-- When nothing waits any more, deliveries are over. -/
theorem follows_rests (hne : hs ≠ []) {x y : Exec H Unit}
    (h : Follows x y w w' fun _ u _ v => Ready K t hs true none n u v ∧ u.stack.queue = [] ∧ v.stack.queue = []) :
    Follows (x >>= fun _ => modifySlots fun s => { s with pumping := false })
      (y >>= fun _ => modifySlots fun s => { s with pumping := false }) w w' fun _ u _ v =>
        Ready K t hs false none n u v :=
  .bind (h.mono fun _ _ _ _ ⟨huv, hq, hq'⟩ =>
    follows_ok rfl rfl ⟨huv.flagged hne false, rfl, fun _ => ⟨rfl, hq, hq'⟩⟩)

section

variable (hb : b.Logless) (hn : (hs ++ [t]).Nodup) (hne : hs ≠ []) (hk : hs.length < k') (hkin : Kindred K t hs b)
include hb hn hne hk hkin

/-- **The application is told the same**, and does the same. -/
theorem Ready.told {ev : Event} (h : Ready K t hs true f n w w') (hf : ∀ r, f = some r → r.advance r.size = .empty ∧
      ∃ data, ev = .recv data) (hnew : ∀ new, ev = .accept new → new ≠ t ∧ new ∉ hs) :
    Follows (deliverToApp b (exec b i) free t ev) (deliverToApp b (exec b (k' + 1)) free' (hs.headD t) ev) w w'
      fun _ u _ v => Ready K t hs true none n u v := by
  have ht := not_mem_of_nodup hn
  have hme : raise t hs t = hs.headD t := raise_self
  -- an event that is no data is told, and that is all
  have hplain : (∀ data, ev ≠ .recv data) → ∀ (call : Call) {kind : CallbackKind} {call' : Call} {absent : Outcome},
      call.names hs = false → call.delivers = false → call.rename (raise t hs) = call' → Follows
        (Stack.callback b (exec b i) t kind call (pure absent))
        (Stack.callback b (exec b (k' + 1)) (hs.headD t) kind call' (pure absent)) w w'
        fun r u r' v => r' = r ∧ Ready K t hs true none n u v := by
    rintro hdata call kind _ absent hcall hdelivers rfl
    obtain rfl : f = none := by
      cases f with
      | none => rfl
      | some r =>
        obtain ⟨-, data, hc⟩ := hf r rfl
        exact absurd hc (hdata data)
    rw [← hme]
    refine (h.callback hb hn hne hk hkin ht kind call hcall (follows_pure ⟨rfl, h, fun hc => ?_⟩)).mono fun r u r' v hr =>
      ⟨hr.1, hr.2.1⟩
    rw [hdelivers] at hc
    cases hc
  have hnotice : (∀ data, ev ≠ .recv data) → ∀ (call : Call) {kind : CallbackKind} {call' : Call} {absent : Outcome},
      call.names hs = false → call.delivers = false → call.rename (raise t hs) = call' → Follows
        (Stack.callback b (exec b i) t kind call (pure absent) >>= fun _ => pure ())
        (Stack.callback b (exec b (k' + 1)) (hs.headD t) kind call' (pure absent) >>= fun _ => pure ()) w w'
        fun _ u _ v => Ready K t hs true none n u v :=
    fun hdata call _ _ _ hcall hdelivers hrename =>
      .then_pure ((hplain hdata call hcall hdelivers hrename).mono fun _ _ _ _ hr => hr.2)
  cases ev with
  | accept new =>
    obtain ⟨hnt, hns⟩ := hnew new rfl
    refine Follows.bind ((hplain nofun (.accept t new) (by simp [Call.names, ht, hns]) rfl
      (by rw [Call.rename, hme, raise_of_ne hnt])).mono ?_)
    rintro r u r' v ⟨rfl, huv⟩
    cases r' with
    | ok _ => exact follows_pure huv
    | error g =>
      simp only [note_eq hb, pure_bind]
      have hasked := huv.asked (k := i) (o := .abort) hb hn hne hk hns nofun nofun
      rw [raise_of_ne hnt] at hasked
      exact hasked.mono fun _ _ _ _ hr => hr.2
  | recv data =>
    have habsent : Follows (do
          note b (.trace "no recv callback, acknowledging and dropping" [t.field, ("len", toString data.length)])
          exec b i (.ask t (.recved data.length))
          pure (.ok ()) : Exec H Outcome) (do
          note b (.trace "no recv callback, acknowledging and dropping" [(hs.headD t).field, ("len", toString data.length)])
          exec b (k' + 1) (.ask (hs.headD t) (.recved data.length))
          pure (.ok ()) : Exec H Outcome) w w' fun r u r' v =>
        r' = r ∧ Ready K t hs true f n u v ∧ ((Call.recv t (some data)).delivers = true → r = .ok ()) := by
      simp only [note_eq hb, pure_bind]
      have hasked := h.asked (k := i) (o := .recved data.length) hb hn hne hk ht nofun nofun
      rw [hme] at hasked
      exact Follows.bind (hasked.mono fun _ _ _ _ hr => follows_pure ⟨rfl, hr.2, fun _ => rfl⟩)
    have hcalled := h.callback (k := i) hb hn hne hk hkin ht .recv (.recv t (some data)) (by simp [Call.names, ht])
      habsent
    simp only [Call.rename, hme] at hcalled
    refine Follows.bind (hcalled.mono ?_)
    rintro r u r' v ⟨rfl, huv, haccepts⟩
    rw [haccepts rfl]
    exact huv.taken hne fun r hr => (hf r hr).1
  | error r =>
    cases f with
    | none => exact follows_pure h
    | some r =>
      obtain ⟨-, data, hc⟩ := hf r rfl
      cases hc
  | connected r => exact hnotice nofun (.connected t r) (by simp [Call.names, ht]) rfl (by rw [Call.rename, hme])
  | sent len => exact hnotice nofun (.sent t len) (by simp [Call.names, ht]) rfl (by rw [Call.rename, hme])
  | poll => exact hnotice nofun (.poll t) (by simp [Call.names, ht]) rfl (by rw [Call.rename, hme])
  | eof => exact hnotice nofun (.recv t none) (by simp [Call.names, ht]) rfl (by rw [Call.rename, hme])

/-- The application is told of the end of a connection. -/
theorem Ready.sunk (h : Ready K t hs true f n w w') {c c' : Option H.Code} (hc : Option.Rel K c c') {x x' : Handle}
    {r : Fault} : Follows (deliver b (exec b i) free ⟨x, .error r, .sink c⟩)
      (deliver b (exec b (k' + 1)) free' ⟨x', .error r, .sink c'⟩) w w' fun _ u _ v => Ready K t hs true f n u v := by
  simp only [deliver, note_eq hb, pure_bind]
  cases hc with
  | none => exact follows_pure h
  | some hc =>
    exact Follows.then_pure ((Kin.called hb hn hne hk (hkin _ _ (.err r) hc rfl) h).mono fun _ _ _ _ hr => hr.2)

/-- **What waits is delivered in both**; in the second there may be up to `n` more events, which concern nobody. -/
theorem Ready.drained (h : Ready K t hs true none n w w') (hj : k + n ≤ j) :
    Follows (drain b (exec b i) free k) (drain b (exec b (k' + 1)) free' j) w w' fun _ u _ v =>
      Ready K t hs true none n u v ∧ u.stack.queue = [] ∧ v.stack.queue = [] := by
  -- on what the second run has left
  induction j generalizing k n w w' with
  | zero =>
    obtain rfl : k = 0 := by omega
    exact follows_outOfFuel rfl
  | succ j ih =>
    cases k with
    | zero => exact follows_outOfFuel rfl
    | succ k =>
      -- the event that is told in both, and what waits behind it
      have hsink : ∀ {x x' : Handle} {r : Fault} {c c' : Option H.Code} {qs qs' : List (Queued H)},
          w.stack.queue = ⟨x, .error r, .sink c⟩ :: qs → w'.stack.queue = ⟨x', .error r, .sink c'⟩ :: qs' →
          Option.Rel K c c' → Ready K t hs true none n { w with stack := { w.stack with queue := qs } }
            { w' with stack := { w'.stack with queue := qs' } } →
          Follows (drain b (exec b i) free (k + 1)) (drain b (exec b (k' + 1)) free' (j + 1)) w w' fun _ u _ v =>
            Ready K t hs true none n u v ∧ u.stack.queue = [] ∧ v.stack.queue = [] := by
        intro x x' r c c' qs qs' hq hq' hc hleft
        exact .of_eq (drain_cons hq) (drain_cons hq') (Follows.bind ((hleft.sunk hb hn hne hk hkin hc).mono
          fun _ u _ v huv => ih huv (by omega)))
      have hnil : w.stack.queue = [] → w'.stack.queue = [] →
          Follows (drain b (exec b i) free (k + 1)) (drain b (exec b (k' + 1)) free' (j + 1)) w w' fun _ u _ v =>
            Ready K t hs true none n u v ∧ u.stack.queue = [] ∧ v.stack.queue = [] :=
        fun hq hq' => follows_ok (drain_nil hq) (drain_nil hq') ⟨h, hq, hq'⟩
      have hown := h.own
      generalize hq : w.stack.queue = qs at hown
      generalize hq' : w'.stack.queue = qs' at hown
      rcases hown with ⟨hstands, hlen, hback⟩ | ⟨hgone, hback⟩
      · cases hback with
        | nil => exact hnil hq hq'
        | sink hc hrest => exact hsink hq hq' hc (h.left hne (.inl ⟨hstands, hlen, hrest⟩))
      · cases hback with
        | nil => exact hnil hq hq'
        | sink hc hrest => exact hsink hq hq' hc (h.left hne (.inr ⟨hgone, hrest⟩))
        | @litter m q _ qs' hlitter hrest =>
          -- the first run waits
          have hleft := h.left hne (.inr ⟨hgone, hrest⟩)
          subst hq
          have hdrop : deliver b (exec b (k' + 1)) free' q { w' with stack := { w'.stack with queue := qs' } } = _ :=
            deliver_litter hlitter fun z hz => hgone.2 z (List.mem_append_left _ hz)
          exact .of_eq (u := w) rfl ((drain_cons hq').trans (bind_ok hdrop _)) ((ih (k := k + 1) hleft (by omega)).mono
            fun _ u _ v huv => ⟨huv.1.mono (Nat.le_succ _), huv.2⟩)

/-- Deliveries begin, and end when nothing waits any more. -/
theorem Raised.pumped (h : Raised K t hs none n w w') (hp : w.stack.pumping = false) (hj : k + n ≤ j) :
    Follows (pump b (exec b i) free k) (pump b (exec b (k' + 1)) free' j) w w' fun _ u _ v =>
      Ready K t hs false none n u v := by
  have hstart : Ready K t hs true none n { w with stack := { w.stack with pumping := true } }
      { w' with stack := { w'.stack with pumping := true } } := ⟨h.flagged hne true, rfl, fun hc => nomatch hc⟩
  exact .of_eq (pump_drains (not_busy h.depth hp)) (pump_drains (not_busy h.depth' (h.pumping.trans hp)))
    (follows_rests hne (hstart.drained hb hn hne hk hkin hj))

/-- **An operation from outside comes to the same**, with the deliveries that it causes. -/
theorem Ready.asked_outside {x : Handle} {o : Op} (h : Ready K t hs false f n w w') (hx : x ∉ hs)
    (ho : ∀ e, o ≠ .lower e) (hd : o ≠ .shutdown .both) (hj : k + n ≤ k' + 1) :
    Follows (exec b (k + 1) (.ask x o)) (exec b (k' + 2) (.ask (raise t hs x) o)) w w' fun r u r' v =>
      r' = r ∧ Ready K t hs false none n u v := by
  obtain ⟨rfl, hq, hq'⟩ := h.rest rfl
  have halive' := h.isAlive hne hx
  cases ha : w.stack.isAlive x with
  | true =>
    refine .of_eq (exec_attempt k ha) (exec_attempt (k' + 1) (halive'.trans ha))
      (Follows.bind ((h.toRaised.attempt hb hn hne hx ho hd (Nat.lt_succ_of_lt hk) ha).mono ?_))
    rintro r u r' v ⟨rfl, huv, hu⟩
    exact Follows.bind ((huv.pumped hb hn hne hk hkin (hu.trans h.pumps) hj).mono fun _ u _ v huv =>
      follows_pure ⟨rfl, huv⟩)
  | false =>
    have hrun' := (exec_gone hb k' o (isAlive_eq_false.1 (halive'.trans ha)) (.inr (.inr hq'))).1
    rcases (exec_gone hb k o (isAlive_eq_false.1 ha) (.inr (.inr hq))).2 with hrun | ⟨u, hrun⟩
    · exact follows_ok hrun hrun' ⟨rfl, h⟩
    · exact follows_outOfFuel hrun

end

end Stack

end Conduit
