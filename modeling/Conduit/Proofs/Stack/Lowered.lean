import Conduit.Proofs.Stack.Told

/-!
# Piles are transparent

-/

namespace Conduit

variable {H : Host}

namespace Stack

open Exec Slots

variable {b : Behaviour H} {w w' u v : World H} {A A' : Answers H} {id t : Handle} {l : Plain H.Pcb} {f : Option Segments}
  {ev : Event} {flag : Bool}

/-! ## A plain layer that is told -/

/-- The connections with an event that waits, if there is one. -/
def tell (s : Slots H) (id : Handle) (told : Option Event) : Slots H :=
  { s with queue := s.queue ++ (told.map fun e => ⟨id, e, .resolve⟩).toList }

/-- What a plain layer that has handed up all it got makes of an event `ev`: it hands up `told`, and `f` is out. -/
structure Heard (ev : Event) (f : Option Segments) (told : Option Event) : Prop where
  taken : ∀ r, f = some r → r.advance r.size = .empty ∧ ∃ data, told = some (.recv data)
  lasting : ∀ r, told ≠ some (.error r)
  accepts : ∀ new, told = some (.accept new) → ev = .accept new

theorem heard_nothing (ev : Event) : Heard ev none none := ⟨nofun, nofun, nofun⟩

theorem tell_none (s : Slots H) (id : Handle) : tell s id none = s := by
  show ({ s with queue := s.queue ++ [] } : Slots H) = s
  rw [List.append_nil]

theorem tell_some (s : Slots H) (id : Handle) {e : Event} (he : ∀ r, e ≠ .error r) : tell s id (some e) = s.enqueue id e := by
  cases e with
  | error r => exact absurd rfl (he r)
  | _ => rfl

/-- What a plain layer has come to, in two worlds, when it was told `ev`. -/
def Told (ev : Event) (id : Handle) (w w' : World H) (x : (Unit × Plain H.Pcb) × Bool) (u : World H)
    (y : (Unit × Plain H.Pcb) × Bool) (v : World H) : Prop :=
  ∃ (l : Plain H.Pcb) (f : Option Segments) (told : Option Event), x = (((), l.loaded f), false) ∧ y = x ∧ l.Drained ∧
    Heard ev f told ∧ Same u v ∧ u.stack = tell w.stack id told ∧ v.stack = tell w'.stack id told

theorem twin_act_emit {σ τ : Type} {s : σ} {s' : τ} {e : Event}
    {post : (Unit × σ) × Bool → World H → (Unit × τ) × Bool → World H → Prop}
    (h : post (((), s), flag) { w with stack := w.stack.enqueue id e } (((), s'), flag)
      { w' with stack := w'.stack.enqueue id e }) :
    Twin ((((Layer.Act.emit e : Layer.Act H σ _).run s).run (answerLayer b A id)).run flag)
      ((((Layer.Act.emit e : Layer.Act H τ _).run s').run (answerLayer b A' id)).run flag) w w' post :=
  twin_act_request h

/-- **A plain layer hands up the same in two worlds.** -/
theorem Plain.lower_twin (hb : b.Logless) (h : Same w w') (hd : l.Drained) (hev : ∀ r, ev ≠ .error r) :
    Twin ((((Plain.lower id ev : Plain.Act H _).run l).run (answerLayer b A id)).run false)
      ((((Plain.lower id ev : Plain.Act H _).run l).run (answerLayer b A' id)).run false) w w' (Told ev id w w') := by
  have hkeep : ∀ {w₁ w₁' : World H} {l : Plain H.Pcb}, l.Drained → Same w₁ w₁' → w₁.stack = w.stack → w₁'.stack = w'.stack →
      Told ev id w w' (((), l), false) w₁ (((), l), false) w₁' := by
    intro w₁ w₁' l hd h hw hw'
    refine ⟨l, none, none, rfl, rfl, hd, heard_nothing ev, h, ?_, ?_⟩
    · rw [tell_none, hw]
    · rw [tell_none, hw']
  have hemit : ∀ {w₁ w₁' : World H} {l : Plain H.Pcb} {f : Option Segments} {e : Event}, l.Drained → Heard ev f (some e) →
      Same w₁ w₁' → w₁.stack = w.stack → w₁'.stack = w'.stack → Told ev id w w' (((), l.loaded f), false)
        { w₁ with stack := w₁.stack.enqueue id e } (((), l.loaded f), false) { w₁' with stack := w₁'.stack.enqueue id e } := by
    intro w₁ w₁' l f e hd he h hw hw'
    have hlast : ∀ r, e ≠ .error r := fun r hc => he.lasting r (congrArg some hc)
    refine ⟨l, f, some e, rfl, rfl, hd, he, ⟨h.net, h.shared, h.memory⟩, ?_, ?_⟩
    · rw [tell_some _ _ hlast, ← hw]
    · rw [tell_some _ _ hlast, ← hw']
  have hheard : ∀ {e : Event}, (∀ r, e ≠ .error r) → (∀ new, e = .accept new → ev = e) → Heard ev none (some e) := by
    intro e hlast hacc
    refine ⟨nofun, fun r hc => hlast r (Option.some.inj hc), fun new hc => ?_⟩
    obtain rfl := Option.some.inj hc
    exact hacc new rfl
  have hpass : Twin ((((Layer.Act.emit ev : Plain.Act H _).run l).run (answerLayer b A id)).run false)
      ((((Layer.Act.emit ev : Plain.Act H _).run l).run (answerLayer b A' id)).run false) w w' (Told ev id w w') :=
    twin_act_emit (hemit (f := none) hd (hheard hev fun _ _ => rfl) h rfl rfl)
  cases ev with
  | accept new => exact hpass
  | connected r => exact hpass
  | sent len => exact hpass
  | error r => exact absurd rfl (hev r)
  | poll =>
    refine twin_act_bind ?_
    rw [hd.offer]
    exact hpass
  | eof =>
    refine twin_act_bind (twin_act_get (twin_act_bind (twin_act_note hb _ _ (twin_act_bind (twin_act_modify ?_)))))
    obtain ⟨p, rx, out, fp, fd, shut⟩ := l
    obtain ⟨hout, hrx, hfin⟩ := hd
    obtain rfl : out = none := hout
    obtain rfl : rx = .empty := hrx
    cases hend : shut || fd with
    | true =>
      have hd' : Plain.Drained { pcb := p, rx := .empty, finPending := true, finDelivered := fd, rxShut := shut } := by
        refine ⟨rfl, rfl, fun hs _ => ?_⟩
        obtain rfl : shut = false := hs
        exact hend
      rw [hd'.offer]
      exact hkeep hd' h rfl rfl
    | false =>
      obtain ⟨rfl, rfl⟩ := Bool.or_eq_false_iff.1 hend
      have hd' : Plain.Drained { pcb := p, rx := .empty, finPending := true, finDelivered := true, rxShut := false } :=
        ⟨rfl, rfl, fun _ _ => rfl⟩
      exact twin_act_emit (hemit (f := none) hd' (hheard nofun nofun) h rfl rfl)
  | recv data =>
    refine twin_act_bind (twin_act_modify ?_)
    cases data with
    | nil =>
      have hl : { l with rx := l.rx.push [] } = l := rfl
      rw [hl, hd.offer]
      exact hkeep hd h rfl rfl
    | cons c data =>
      obtain ⟨p, rx, out, fp, fd, shut⟩ := l
      obtain ⟨hout, hrx, hfin⟩ := hd
      obtain rfl : out = none := hout
      obtain rfl : rx = .empty := hrx
      -- what has come in
      generalize hr : Segments.empty.push (c :: data) = r
      have hsize : 0 < r.size := by
        rw [← hr, Segments.size_push]
        exact Nat.succ_pos _
      have hempty : r.isEmpty = false := by
        unfold Segments.isEmpty
        exact beq_eq_false_iff_ne.2 (Nat.ne_of_gt hsize)
      show Twin ((((Plain.offer id : Plain.Act H _).run ⟨p, r, none, fp, fd, shut⟩).run (answerLayer b A id)).run false)
        ((((Plain.offer id : Plain.Act H _).run ⟨p, r, none, fp, fd, shut⟩).run (answerLayer b A' id)).run false) w w' _
      unfold Plain.offer
      refine twin_act_bind (twin_act_get ?_)
      simp only [Option.isSome_none, Bool.false_eq_true, if_false]
      cases shut with
      | true =>
        -- the engine learns that it was dropped
        have hd' : Plain.Drained { pcb := p, rx := .empty, finPending := fp, finDelivered := fd, rxShut := true } :=
          ⟨rfl, rfl, nofun⟩
        simp only [if_true, hsize]
        refine twin_act_bind (twin_act_set (twin_act_bind (withPcb_twin (f := none) hb h fun _ u v hs hu hv => ?_)))
        exact twin_act_note hb _ _ (hkeep hd' hs hu hv)
      | false =>
        simp only [hempty, Bool.not_false, Bool.false_eq_true, if_true, if_false]
        refine twin_act_bind (twin_act_set (twin_act_emit ?_))
        refine hemit (l := ⟨p, .empty, none, fp, fd, false⟩) (f := some r) ⟨rfl, rfl, hfin⟩ ⟨?_, nofun, nofun⟩ h rfl rfl
        rintro _ ⟨⟩
        refine ⟨?_, _, rfl⟩
        rw [← hr]
        exact Segments.wellFormed_empty.push.advance_size

/-! ## Events from outside -/

/-- The connection `id` with another plain layer. -/
def relaid (s : Slots H) (id : Handle) (l : Plain H.Pcb) : Slots H := s.update id fun e => { e with layer := some (.plain l) }

section

variable {e e' : Entry H} {free free' : Handle → Exec H Unit}

/-- A plain connection is told of an event in two worlds. -/
theorem withLayer_lower (hb : b.Logless) (h : Same w w') (hg : Ground w.stack t l e) (hg' : Ground w'.stack t l e')
    (hd : l.Drained) (hev : ∀ r, ev ≠ .error r) :
    Follows (withLayer b A free t (.op (.lower ev))) (withLayer b A' free' t (.op (.lower ev))) w w' fun r u r' v =>
      r = .ok (.ok ()) ∧ r' = r ∧ Same u v ∧ ∃ (l₁ : Plain H.Pcb) (f : Option Segments) (told : Option Event),
        l₁.Drained ∧ Heard ev f told ∧ u.stack = tell (relaid w.stack t (l₁.loaded f)) t told ∧
          v.stack = tell (relaid w'.stack t (l₁.loaded f)) t told := by
  have haway : ∀ {s : Slots H} {e : Entry H} (told : Option Event), Ground s t l e →
      (tell (s.away t) t told).isAlive t = true := by
    intro s e told hg
    exact isAlive_away (s := s) hg.find?
  have hback : ∀ (s : Slots H) (l : Plain H.Pcb) (told : Option Event),
      (tell (s.away t) t told).back t (.plain l) = tell (relaid s t l) t told := by
    intro s l told
    unfold relaid
    rw [← back_away]
    rfl
  refine follows_withLayers hg.find? hg.layer hg'.find? hg'.layer (.of_twin ?_)
  show Twin (((((Plain.step t (.op (.lower ev))).run l).run (answerLayer b A t)) >>= fun y =>
      pure (Layer.plain y.2, y.1) : Running H _).run false)
    (((((Plain.step t (.op (.lower ev))).run l).run (answerLayer b A' t)) >>= fun y => pure (Layer.plain y.2, y.1) :
      Running H _).run false) _ _ _
  rw [StateT.run_bind, StateT.run_bind]
  refine Twin.bind (twin_act_bind ((Plain.lower_twin hb (show Same { w with stack := w.stack.away t }
    { w' with stack := w'.stack.away t } from ⟨h.net, h.shared, h.memory⟩) hd hev).mono ?_))
  rintro _ u _ v ⟨l₁, f, told, rfl, rfl, hd₁, hheard, hs, hu, hv⟩
  refine ⟨hu ▸ haway told hg, hv ▸ haway told hg', follows_pure ⟨rfl, rfl, ⟨hs.net, hs.shared, hs.memory⟩, l₁, f, told, hd₁,
    hheard, ?_, ?_⟩⟩
  · show u.stack.back t _ = _
    rw [hu, hback]
  · show v.stack.back t _ = _
    rw [hv, hback]

/-- A plain connection that is told of a failure ends. -/
theorem runMethod_failure (hb : b.Logless) (r : Fault) :
    ((runMethod b A t (.op (.lower (.error r))) (.plain l)).run false) w =
      .ok ((.plain { l with pcb := none, rx := .empty }, .ok ()), true) { w with stack := w.stack.enqueue t (.error r) } := by
  show EStateM.Result.ok _ ({ w with
    memory := b.note (.debug "tcp engine reported fatal error" [t.field, r.field]) w.memory
    stack := w.stack.enqueue t (.error r) } : World H) = _
  rw [hb]

end

/-- A plain connection is told of a failure in two worlds, and is gone. -/
theorem withLayer_failure {e e' : Entry H} {k k' : Nat} (hb : b.Logless) (h : Same w w') (hg : Ground w.stack t l e)
    (hg' : Ground w'.stack t l e') (r : Fault) :
    Follows (withLayer b A (freeEntry b A k) t (.op (.lower (.error r))))
      (withLayer b A' (freeEntry b A' (k' + 1)) t (.op (.lower (.error r)))) w w' fun a u a' v =>
        a = .ok (.ok ()) ∧ a' = a ∧ Same u v ∧
          (Without t [t] w.stack u.stack ∧ u.stack.queue = w.stack.queue ++ [⟨t, .error r, e.farewell⟩]) ∧
          Without t [t] w'.stack v.stack ∧ v.stack.queue = w'.stack.queue ++ [⟨t, .error r, e'.farewell⟩] := by
  obtain ⟨w₁, hrun, hfrees⟩ := withLayer_fails (A := A) hb hg.find? hg.layer (.plain rfl) hg.inner hg.outer
    (runMethod_failure hb r)
  obtain ⟨w₁', hrun', hfrees'⟩ := withLayer_fails (A := A') hb hg'.find? hg'.layer (.plain rfl) hg'.inner hg'.outer
    (runMethod_failure hb r)
  refine .of_eq (hrun _) (hrun' _) ?_
  cases k with
  | zero => exact follows_outOfFuel rfl
  | succ k =>
    obtain ⟨u, hfree, hs, hu⟩ := hfrees k
    obtain ⟨v, hfree', hs', hv⟩ := hfrees' k'
    exact .of_eq (bind_ok hfree _) (bind_ok hfree' _) (follows_pure ⟨rfl, rfl, hs.symm.trans (h.trans hs'), hu, hv⟩)

section

variable {K : H.Code → H.Code → Prop} {hs : List Handle} {n k k' : Nat} {e e' top : Entry H} {l₁ : Plain H.Pcb}
  {g : Option Segments}

theorem find?_relaid {s : Slots H} (he : s.find? t = some e) (x : Handle) : (relaid s t l).find? x =
    if x = t then some { e with layer := some (.plain l) } else s.find? x := by
  unfold relaid
  rw [find?_update, he]
  rfl

/-- The connection was told, and the layer at the foot of the pile with it. -/
theorem Raised.laid (h : Raised K t hs g n w w') (hstands : Standing K t hs g w.stack w'.stack l e e' top)
    (hlen : hs.length ≤ n) (hn : (hs ++ [t]).Nodup) (hne : hs ≠ []) (hd : l₁.Drained) (hsame : Same u v)
    (hu : ∀ x, u.stack.find? x = (relaid w.stack t (l₁.loaded f)).find? x)
    (hv : ∀ x, v.stack.find? x = (relaid w'.stack t l₁).find? x) (hdepth : u.stack.depth = 0) (hdepth' : v.stack.depth = 0)
    (hpumping : v.stack.pumping = u.stack.pumping) (hq : u.stack.queue = []) (hq' : v.stack.queue = []) :
    Raised K t hs f n u v := by
  have ht := not_mem_of_nodup hn
  have hfind := fun x => (hu x).trans (find?_relaid hstands.own.find? x)
  have hfind' := fun x => (hv x).trans (find?_relaid hstands.base.find? x)
  have hmem : ∀ y ∈ hs, v.stack.find? y = w'.stack.find? y := fun y hy =>
    (hfind' y).trans (if_neg fun hc : y = t => ht (hc ▸ hy))
  refine ⟨hsame, hdepth, hdepth', hpumping, fun x hx hx' => ?_, .inl ⟨⟨l₁, { e with layer := some (.plain (l₁.loaded f)) },
    { e' with layer := some (.plain l₁) }, top, ⟨(hfind t).trans (if_pos rfl), rfl, hstands.own.inner, hstands.own.outer⟩,
    hstands.outer, ⟨(hfind' t).trans (if_pos rfl), rfl, hstands.base.inner, hstands.base.outer⟩, hd, hstands.pollInterval,
    hstands.pile.congr hmem ?_, ?_, ?_⟩, hlen, ?_⟩⟩
  · rw [hfind, if_neg hx, hfind', if_neg hx]
    exact h.other x hx hx'
  · unfold outer?
    rw [hfind', if_pos rfl, hstands.base.find?]
    rfl
  · exact (hmem _ (headD_mem hne)).trans hstands.uppermost
  · exact ⟨hstands.known.callbacks, hstands.known.epoch, hstands.known.pollInterval⟩
  · rw [hq, hq']
    exact .nil

section

variable {i j : Nat} {free free' : Handle → Exec H Unit} {told : Option Event}
  (hb : b.Logless) (hn : (hs ++ [t]).Nodup) (hne : hs ≠ []) (hk : hs.length < k') (hkin : Kindred K t hs b)
include hb hn hne hk hkin

/-- **What the connection hands up reaches the application in both.** -/
theorem Ready.handsUp (h : Ready K t hs false g n w w') (hstands : Standing K t hs g w.stack w'.stack l e e' top)
    (hlen : hs.length ≤ n) (hd : l₁.Drained) (hheard : Heard ev f told) (hsame : Same u v)
    (hu : u.stack = tell (relaid w.stack t (l₁.loaded f)) t told)
    (hv : v.stack = tell (relaid w'.stack t (l₁.loaded f)) t told)
    (hnew : ∀ new, ev = .accept new → new ≠ t ∧ new ∉ hs) (hj : k + n + hs.length ≤ j) :
    Follows (pump b (exec b i) free k) (pump b (exec b (k' + 1)) free' j) u v fun _ u _ v =>
      Ready K t hs false none n u v := by
  obtain ⟨-, hq, hq'⟩ := h.rest rfl
  have hpumping : u.stack.pumping = false := by rw [hu]; exact h.pumps
  have hpumping' : v.stack.pumping = false := by rw [hv]; exact h.pumping.trans h.pumps
  have hdepth : u.stack.depth = 0 := by rw [hu]; exact h.depth
  have hdepth' : v.stack.depth = 0 := by rw [hv]; exact h.depth'
  cases told with
  | none =>
    obtain rfl : f = none := by
      cases f with
      | none => rfl
      | some r =>
        obtain ⟨-, data, hc⟩ := hheard.taken r rfl
        cases hc
    rw [tell_none] at hu hv
    have huv : Raised K t hs none n u v := h.laid hstands hlen hn hne hd hsame (fun x => by rw [hu]) (fun x => by rw [hv]; rfl)
      hdepth hdepth' (hpumping'.trans hpumping.symm) (by rw [hu]; exact hq) (by rw [hv]; exact hq')
    exact huv.pumped hb hn hne hk hkin hpumping (by omega)
  | some told =>
    refine .of_eq (pump_drains (not_busy hdepth hpumping)) (pump_drains (not_busy hdepth' hpumping')) (follows_rests hne ?_)
    cases k with
    | zero => exact follows_outOfFuel rfl
    | succ k =>
      obtain ⟨j, rfl⟩ : ∃ m, j = m + 1 + hs.length := ⟨j - 1 - hs.length, by omega⟩
      have hwaits : u.stack.queue = [⟨t, told, .resolve⟩] := by
        rw [hu]
        show w.stack.queue ++ [_] = _
        rw [hq]
        rfl
      have hwaits' : v.stack.queue = [⟨t, told, .resolve⟩] := by
        rw [hv]
        show w'.stack.queue ++ [_] = _
        rw [hq']
        rfl
      have hfind : ∀ x, u.stack.find? x = (relaid w.stack t (l₁.loaded f)).find? x := fun x => by rw [hu]; rfl
      have hfind' : ∀ x, v.stack.find? x = (relaid w'.stack t (l₁.loaded f)).find? x := fun x => by rw [hv]; rfl
      have hbase := (hfind' t).trans ((find?_relaid hstands.base.find? t).trans (if_pos rfl))
      have hown := (hfind t).trans ((find?_relaid hstands.own.find? t).trans (if_pos rfl))
      have hmem : ∀ y ∈ hs, v.stack.find? y = w'.stack.find? y := fun y hy =>
        (hfind' y).trans ((find?_relaid hstands.base.find? y).trans
          (if_neg fun hc : y = t => not_mem_of_nodup hn (hc ▸ hy)))
      have houter : v.stack.outer? t = w'.stack.outer? t := by
        unfold outer?
        rw [hbase, hstands.base.find?]
        rfl
      -- in the second world it has to rise first
      have hrisen : drain b (exec b (k' + 1)) free' (j + 1 + hs.length) { v with stack := { v.stack with pumping := true } } =
          _ := drain_risen hwaits' ⟨hbase, rfl, hstands.base.inner, hstands.base.outer⟩ hd
        (fun r hr => (hheard.taken r hr).imp_right fun ⟨data, hdata⟩ => ⟨data, Option.some.inj hdata⟩)
        (fun r hc => hheard.lasting r (congrArg some hc)) (hstands.pile.congr hmem houter) hn hne
      have hstart : Ready K t hs true f n { u with stack := { u.stack with pumping := true, queue := [] } }
          { v with stack := { relaid v.stack t l₁ with pumping := true, queue := [] } } := by
        refine ⟨h.laid hstands hlen hn hne hd ⟨hsame.net, hsame.shared, hsame.memory⟩ hfind (fun x => ?_) hdepth hdepth' rfl rfl
          rfl, rfl, nofun⟩
        show (relaid v.stack t l₁).find? x = _
        rw [find?_relaid hbase, find?_relaid hstands.base.find?, hfind', find?_relaid hstands.base.find?]
        by_cases hx : x = t
        · rw [if_pos hx, if_pos hx]
        · rw [if_neg hx, if_neg hx, if_neg hx]
      refine .of_eq (drain_cons hwaits) (hrisen.trans (drain_cons rfl)) (Follows.bind (.of_eq
        (deliver_uppermost (w := { u with stack := { u.stack with pumping := true, queue := [] } }) hown hstands.outer)
        (deliver_uppermost (w := { v with stack := { relaid v.stack t l₁ with pumping := true, queue := [] } }) ?_ hstands.outer_top) ?_))
      · have hnt : hs.headD t ≠ t := fun hc => not_mem_of_nodup hn (hc ▸ headD_mem hne)
        show (relaid v.stack t l₁).find? (hs.headD t) = _
        rw [find?_relaid hbase, if_neg hnt]
        exact (hmem _ (headD_mem hne)).trans hstands.uppermost
      · refine (hstart.told hb hn hne hk hkin (fun r hr => (hheard.taken r hr).imp_right fun ⟨data, hdata⟩ =>
          ⟨data, Option.some.inj hdata⟩) fun new hc => hnew new (hheard.accepts new (congrArg some hc))).mono ?_
        exact fun _ u₁ _ v₁ huv => huv.drained hb hn hne hk hkin (by omega)

/-- **When the connection fails, the application is told so in both.** -/
theorem Ready.fails {m : Nat} {r : Fault} (h : Ready K t hs false g n w w')
    (hstands : Standing K t hs g w.stack w'.stack l e e' top) (hsame : Same u v) (hu : Without t [t] w.stack u.stack)
    (hq : u.stack.queue = [⟨t, .error r, e.farewell⟩]) (hv : Without t [t] w'.stack v.stack)
    (hq' : v.stack.queue = [⟨t, .error r, e'.farewell⟩]) (hj : k + n + hs.length ≤ j) :
    Follows (pump b (exec b i) free k) (pump b (exec b (k' + 1)) (freeEntry b (exec b (k' + 1)) (m + 1)) j) u v
      fun _ u _ v => Ready K t hs false none n u v := by
  obtain ⟨rfl, -, -⟩ := h.rest rfl
  obtain ⟨j, rfl⟩ : ∃ d, j = d + hs.length := ⟨j - hs.length, by omega⟩
  have hdepth : u.stack.depth = 0 := hu.depth.trans h.depth
  have hdepth' : v.stack.depth = 0 := hv.depth.trans h.depth'
  have hpumping : u.stack.pumping = false := hu.pumping.trans h.pumps
  have hpumping' : v.stack.pumping = false := hv.pumping.trans (h.pumping.trans h.pumps)
  -- in the second world the others fail one after the other
  obtain ⟨v₁, top', hdrain, hs₁, htop, hwithout, hqueue⟩ := drain_fails (A := exec b (k' + 1)) (j := m) (k := j)
    (s := { w'.stack with pumping := true }) (w := { v with stack := { v.stack with pumping := true } }) hb
    hstands.base.find? (hstands.pile.congr (fun _ _ => rfl) rfl) hn (fun _ _ => nofun) ⟨hv.find?, hv.depth, rfl⟩ hq'
  obtain rfl : top = top' := Option.some.inj (hstands.uppermost.symm.trans htop)
  have hback : Backlog K hs n u.stack.queue v₁.stack.queue := by
    rw [hq, hqueue, farewell_of_outer hstands.outer, farewell_of_outer hstands.outer_top]
    exact .sink (hstands.known.callbacks .err) .nil
  have hstart : Raised K t hs none n { u with stack := { u.stack with pumping := true } } v₁ :=
    (h.flagged hne true).without (hstands.congr rfl (fun _ _ => rfl) hne)
      ⟨hs₁.net.trans hsame.net, hs₁.shared.trans hsame.shared, hs₁.memory.trans hsame.memory⟩ ⟨hu.find?, hu.depth, rfl⟩
      hwithout hback
  exact .of_eq (pump_drains (not_busy hdepth hpumping)) (pump_drains (not_busy hdepth' hpumping')) (follows_rests hne
    (.of_eq rfl hdrain (Ready.drained hb hn hne hk hkin ⟨hstart, rfl, nofun⟩ (by omega))))

/-- **An event from outside comes to the same**, with the deliveries that it causes. -/
theorem Ready.lowered (h : Ready K t hs false f n w w') (hnew : ∀ new, ev = .accept new → new ≠ t ∧ new ∉ hs)
    (hj : k + n + hs.length ≤ k' + 1) :
    Follows (exec b (k + 1) (.ask t (.lower ev))) (exec b (k' + 2) (.ask t (.lower ev))) w w' fun r u r' v =>
      r' = r ∧ Ready K t hs false none n u v := by
  obtain ⟨rfl, hq, hq'⟩ := h.rest rfl
  rcases h.own with ⟨⟨l, e, e', top, hstands⟩, hlen, -⟩ | ⟨⟨hgone, hgone'⟩, -⟩
  · have hrun : ∀ {k : Nat} {w : World H} {l : Plain H.Pcb} {e : Entry H}, Ground w.stack t l e →
        exec b (k + 1) (.ask t (.lower ev)) w =
          (withLayer b (exec b k) (freeEntry b (exec b k) k) t (.op (.lower ev)) >>= fun r =>
            pump b (exec b k) (freeEntry b (exec b k) k) k >>= fun _ => pure (r.bind id)) w := by
      intro k w l e hg
      refine (exec_attempt k (isAlive_iff.2 ⟨_, hg.find?⟩)).trans ?_
      simp only [attempt, tried, note_eq hb, pure_bind, bind_assoc]
      refine congrFun (bind_congr fun r => ?_) w
      cases r <;> rfl
    refine .of_eq (hrun hstands.own) (hrun hstands.base) (Follows.bind ?_)
    by_cases hev : ∀ r, ev ≠ .error r
    · refine (withLayer_lower hb h.same hstands.own hstands.base hstands.drained hev).mono ?_
      rintro _ u _ v ⟨rfl, rfl, hs', l₁, f, told, hd, hheard, hu, hv⟩
      exact Follows.bind ((h.handsUp hb hn hne hk hkin hstands hlen hd hheard hs' hu hv hnew hj).mono fun _ u _ v huv =>
        follows_pure ⟨rfl, huv⟩)
    · obtain ⟨r, rfl⟩ : ∃ r, ev = .error r := by
        cases ev with
        | error r => exact ⟨r, rfl⟩
        | _ => exact absurd (fun _ h => by cases h) hev
      refine (withLayer_failure hb h.same hstands.own hstands.base r).mono ?_
      rintro _ u _ v ⟨rfl, rfl, hs', ⟨hu, huq⟩, hv, hvq⟩
      rw [hq] at huq
      rw [hq'] at hvq
      exact Follows.bind ((h.fails hb hn hne hk hkin hstands hs' hu huq hv hvq hj).mono fun _ u _ v huv =>
        follows_pure ⟨rfl, huv⟩)
  · have hrun' := (exec_gone hb k' (.lower ev) (hgone' t (by simp)) (.inr (.inr hq'))).1
    rcases (exec_gone hb k (.lower ev) hgone (.inr (.inr hq))).2 with hrun | ⟨u, hrun⟩
    · exact follows_ok hrun hrun' ⟨rfl, h⟩
    · exact follows_outOfFuel hrun

/-- **What an application does from outside comes to the same.** -/
theorem Ready.runs {α β : Type} {R : α → β → Prop} {p : Act H α} {p' : Act H β} (happ : Kin K t hs true R p p')
    (h : Ready K t hs false none n w w') (hj : k + n + hs.length ≤ k' + 2) :
    Follows (run b k p) (run b (k' + 2) p') w w' fun a u c v => R a c ∧ Ready K t hs false none n u v := by
  refine Kin.runs hn hne (fun h hx ho hd => ?_) (fun _ _ _ _ h hnew => ?_) happ h
  · cases k with
    | zero => exact follows_outOfFuel rfl
    | succ k => exact h.asked_outside hb hn hne hk hkin hx ho hd (by omega)
  · cases k with
    | zero => exact follows_outOfFuel rfl
    | succ k => exact h.lowered hb hn hne hk hkin hnew (by omega)

end

end

end Stack

end Conduit
