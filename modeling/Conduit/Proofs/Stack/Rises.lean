import Conduit.Proofs.Stack.Raised

/-!
# Events that rise through a pile

-/

namespace Conduit

variable {H : Host}

namespace Plain.Drained

variable {l : Plain H.Pcb} {f : Option Segments} {me : Handle}

/-- A layer that has handed up all it got has nothing to offer. -/
theorem offer (h : l.Drained) : (Plain.offer me : Plain.Act H _).run l = .done ((), l) := by
  obtain ⟨p, rx, out, fp, fd, shut⟩ := l
  obtain ⟨hout, hrx, hfin⟩ := h
  obtain rfl : out = none := hout
  obtain rfl : rx = .empty := hrx
  cases shut with
  | true => rfl
  | false =>
    cases fp with
    | false => rfl
    | true =>
      obtain rfl : fd = true := hfin rfl rfl
      rfl

/-- What was out has been taken. -/
theorem settle (h : l.Drained) (hf : ∀ r, f = some r → r.advance r.size = .empty) :
    (Plain.settle me (.ok ()) : Plain.Act H _).run (l.loaded f) = .done ((), l) := by
  cases f with
  | none =>
    obtain ⟨p, rx, out, fp, fd, shut⟩ := l
    obtain rfl : out = none := h.inFlight
    rfl
  | some r =>
    have hl : { l.loaded (some r) with inFlight := none, rx := r.advance r.size } = l := by
      rw [hf r rfl]
      obtain ⟨p, rx, out, fp, fd, shut⟩ := l
      obtain rfl : out = none := h.inFlight
      obtain rfl : rx = .empty := h.rx
      rfl
    show (Plain.offer me : Plain.Act H _).run { l.loaded (some r) with inFlight := none, rx := r.advance r.size } = _
    rw [hl, h.offer]

end Plain.Drained

namespace Stack

open Exec Slots

variable {b : Behaviour H} {w u : World H} {A : Answers H} {free : Handle → Exec H Unit} {t x z : Handle} {e : Entry H}
  {name : String} {ev : Event} {k j : Nat} {hs zs : List Handle} {l : Plain H.Pcb} {f : Option Segments} {v : Outcome}

/-! ## Layers that are told -/

/-- A method has run that at most queued events. -/
theorem withLayer_queued {m : Method} {layer layer' : Layer H} {r : m.Reply} {qs : List (Queued H)}
    (he : w.stack.find? x = some e) (hl : e.layer = some layer)
    (hrun : ((runMethod b A x m layer).run false) { w with stack := w.stack.away x } =
      .ok ((layer', r), false) { w with stack := { w.stack.away x with queue := qs } }) :
    withLayer b A free x m w =
      .ok (.ok r) { w with stack := { w.stack.update x fun e => { e with layer := some layer' } with queue := qs } } := by
  have haway : (w.stack.away x).isAlive x = true := isAlive_away he
  refine (withLayer_done he hl hrun haway).trans ?_
  rw [← back_away]
  rfl

/-- A layer that is put back as it was leaves no trace. -/
theorem update_layer {layer : Layer H} (he : w.stack.find? x = some e) (hl : e.layer = some layer) :
    (w.stack.update x fun e => { e with layer := some layer }) = w.stack := by
  refine update_eq_self fun e' he' => ?_
  obtain rfl : e = e' := Option.some.inj (he.symm.trans he')
  rw [← hl]

/-- A layer that hands on hands an event up. -/
theorem withLayer_rises (he : w.stack.find? z = some e) (hl : e.layer = some (.passthrough name))
    (hev : ∀ r, ev ≠ .error r) : withLayer b A free z (.op (.lower ev)) w =
      .ok (.ok (.ok ())) { w with stack := { w.stack with queue := w.stack.queue ++ [⟨z, ev, .resolve⟩] } } := by
  have hrun : ((runMethod b A z (.op (.lower ev)) (.passthrough name)).run false) { w with stack := w.stack.away z } =
      .ok ((.passthrough name, .ok ()), false)
        { w with stack := { w.stack.away z with queue := w.stack.queue ++ [⟨z, ev, .resolve⟩] } } := by
    cases ev with
    | error r => exact absurd rfl (hev r)
    | _ => rfl
  rw [withLayer_queued he hl hrun, update_layer he hl]

/-- A layer that hands on does not care for verdicts. -/
theorem settleRecv_handsOn (he : w.stack.find? x = some e) (hl : e.layer = some (.passthrough name)) :
    settleRecv b A free x v w = .ok () w := by
  have hrun : ((runMethod b A x (.settled v) (.passthrough name)).run false) { w with stack := w.stack.away x } =
      .ok ((.passthrough name, ()), false) { w with stack := { w.stack.away x with queue := w.stack.queue } } := rfl
  unfold settleRecv
  rw [bind_ok (withLayer_queued he hl hrun), update_layer he hl]
  rfl

theorem settleRecv_absent (hx : w.stack.find? x = none) : settleRecv b A free x v w = .ok () w := by
  have hlookup : lookup x w = .ok none w := congrArg (EStateM.Result.ok · w) hx
  unfold settleRecv withLayer
  rw [bind_assoc, bind_ok hlookup]
  rfl

/-- What was out has been taken, and a plain layer has nothing more to hand up. -/
theorem settleRecv_drained (he : w.stack.find? t = some e) (hl : e.layer = some (.plain (l.loaded f))) (hd : l.Drained)
    (hf : ∀ r, f = some r → r.advance r.size = .empty) : settleRecv b A free t (.ok ()) w =
      .ok () { w with stack := w.stack.update t fun e => { e with layer := some (.plain l) } } := by
  have hrun : ((runMethod b A t (.settled (.ok ())) (.plain (l.loaded f))).run false) { w with stack := w.stack.away t } =
      .ok ((.plain l, ()), false) { w with stack := { w.stack.away t with queue := w.stack.queue } } := by
    show (((((Plain.settle t (.ok ())).run (l.loaded f)).run (answerLayer b A t)) >>= fun y =>
      pure (Layer.plain y.2, y.1) : Running H _).run false) _ = _
    rw [hd.settle hf]
    rfl
  unfold settleRecv
  rw [bind_ok (withLayer_queued he hl hrun)]
  rfl

/-- A layer that has failed queues its last event, and its connection is freed. -/
theorem withLayer_fails (hb : b.Logless) {layer layer' : Layer H} {r : Fault} (he : w.stack.find? x = some e)
    (hl : e.layer = some layer) (hspent : layer'.Spent) (hi : e.inner = none) (ho : e.outer ≠ some x)
    (hrun : ((runMethod b A x (.op (.lower (.error r))) layer).run false) { w with stack := w.stack.away x } =
      .ok ((layer', .ok ()), true) { w with stack := (w.stack.away x).enqueue x (.error r) }) :
    ∃ w₁, (∀ free, withLayer b A free x (.op (.lower (.error r))) w = (free x >>= fun _ => pure (.ok (.ok ()))) w₁) ∧
      ∀ j, ∃ u, freeEntry b A (j + 1) x w₁ = .ok () u ∧ Same w u ∧ Without x [x] w.stack u.stack ∧
        u.stack.queue = w.stack.queue ++ [⟨x, .error r, e.farewell⟩] := by
  have haway : (w.stack.away x).find? x = some (bare e) := find?_away_self he
  obtain ⟨hqueue, hdepth, hpumping, c, hfind⟩ := enqueue_error haway r
  have halive : ((w.stack.away x).enqueue x (.error r)).isAlive x = true := isAlive_iff.2 ⟨_, (hfind x).trans (if_pos rfl)⟩
  have hback : ∀ y, (((w.stack.away x).enqueue x (.error r)).back x layer').find? y =
      if y = x then some { e with layer := some layer', callbacks := c } else w.stack.find? y := by
    intro y
    rw [find?_back, hfind, if_pos rfl, hfind, find?_away]
    by_cases hy : y = x
    · rw [if_pos hy, if_pos hy]
      rfl
    · rw [if_neg hy, if_neg hy, if_neg hy, if_neg hy]
  refine ⟨{ w with stack := ((w.stack.away x).enqueue x (.error r)).back x layer' },
    fun free => withLayer_done he hl hrun halive, fun j => ?_⟩
  obtain ⟨u, hfree, hsame, hwithout, hq⟩ := freeEntry_spent
    (w := { w with stack := ((w.stack.away x).enqueue x (.error r)).back x layer' }) (A := A) (k := j) hb
    ((hback x).trans (if_pos rfl)) rfl hspent hi ho
  refine ⟨u, hfree, ⟨hsame.net, hsame.shared, hsame.memory⟩, hwithout.congr (fun y hy => ?_) ?_ ?_ hpumping,
    hq.trans hqueue⟩
  · exact (hback y).trans (if_neg fun hc => hy (List.mem_singleton.2 hc))
  · show ((((w.stack.away x).enqueue x (.error r)).back x layer').find? x).bind (·.outer) = (w.stack.find? x).bind (·.outer)
    rw [hback, if_pos rfl, he]
    rfl
  · show ((w.stack.away x).enqueue x (.error r)).depth - 1 = w.stack.depth
    rw [hdepth]
    rfl

/-! ## Deliveries on the way up -/

/-- The event that has waited longest is delivered. -/
theorem drain_cons {q : Queued H} {qs : List (Queued H)} (hq : w.stack.queue = q :: qs) : drain b A free (k + 1) w =
    (deliver b A free q >>= fun _ => drain b A free k) { w with stack := { w.stack with queue := qs } } := by
  refine (bind_ok (getSlots_eq w) _).trans ?_
  rw [hq]
  rfl

theorem drain_nil (hq : w.stack.queue = []) : drain b A free (k + 1) w = .ok () w := by
  refine (bind_ok (getSlots_eq w) _).trans ?_
  rw [hq]
  rfl

theorem deliver_resolve {w : World H} (he : w.stack.find? x = some e) : deliver b A free ⟨x, ev, .resolve⟩ w =
    (match e.outer with
      | some outer => deliverToLayer b A free outer x ev
      | none => deliverToApp b A free x ev) w :=
  (bind_ok (x := lookup x) (congrArg (EStateM.Result.ok · w) he) _).trans rfl

theorem deliver_uppermost {w : World H} (he : w.stack.find? x = some e) (ho : e.outer = none) :
    deliver b A free ⟨x, ev, .resolve⟩ w = deliverToApp b A free x ev w := by
  rw [deliver_resolve he, ho]

/-- An event has come one connection further up, and the layer that had emitted it has its verdict. -/
theorem drain_rises {s : Slots H} (hq : w.stack.queue = [⟨x, ev, .resolve⟩]) (hx : w.stack.outer? x = some z)
    (he : w.stack.find? z = some e) (hl : e.layer = some (.passthrough name)) (hev : ∀ r, ev ≠ .error r)
    (hsettle : ∀ qs, (match ev with
        | .recv _ => settleRecv b A free x (.ok ())
        | _ => pure () : Exec H Unit) { w with stack := { w.stack with queue := qs } } =
      .ok () { w with stack := { s with queue := qs } }) :
    drain b A free (k + 1) w =
      drain b A free k { w with stack := { s with queue := [⟨z, ev, .resolve⟩] } } := by
  obtain ⟨ex, hex, hout⟩ := outer?_eq_some.1 hx
  have hlayer : withLayer b A free z (.op (.lower ev)) { w with stack := { w.stack with queue := [] } } = _ :=
    withLayer_rises he hl hev
  have hdeliver : deliver b A free ⟨x, ev, .resolve⟩ { w with stack := { w.stack with queue := [] } } =
      .ok () { w with stack := { s with queue := [⟨z, ev, .resolve⟩] } } := by
    rw [deliver_resolve (w := { w with stack := { w.stack with queue := [] } }) hex, hout]
    refine (bind_ok hlayer _).trans ?_
    have hset := hsettle [⟨z, ev, .resolve⟩]
    cases ev <;> exact hset
  rw [drain_cons hq, bind_ok hdeliver]

/-- **An event has come up to the uppermost of a pile**, and what the lowest had out was taken. -/
theorem drain_risen {up : Option Handle} (hq : w.stack.queue = [⟨t, ev, .resolve⟩]) (hg : Ground w.stack t (l.loaded f) e)
    (hd : l.Drained) (hf : ∀ r, f = some r → r.advance r.size = .empty ∧ ∃ data, ev = .recv data)
    (hev : ∀ r, ev ≠ .error r) (hpile : w.stack.Pile t up zs) (hn : (zs ++ [t]).Nodup) (hne : zs ≠ []) :
    drain b A free (k + zs.length) w = drain b A free k { w with stack :=
      { w.stack.update t fun e => { e with layer := some (.plain l) } with queue := [⟨zs.headD t, ev, .resolve⟩] } } := by
  induction zs generalizing k up with
  | nil => exact absurd rfl hne
  | cons z zs ih =>
    obtain ⟨⟨ez, name, hez, hl, -, -⟩, hbelow⟩ := hpile
    obtain ⟨hz, hn⟩ := List.nodup_cons.1 hn
    have hout := hbelow.outer_head
    cases zs with
    | nil =>
      refine drain_rises hq hout hez hl hev fun qs => ?_
      cases ev with
      | recv data =>
        exact settleRecv_drained (w := { w with stack := { w.stack with queue := qs } }) hg.find? hg.layer hd
          fun r hr => (hf r hr).1
      | _ =>
        cases f with
        | some r =>
          obtain ⟨-, data, hdata⟩ := hf r rfl
          cases hdata
        | none =>
          have hstill : (w.stack.update t fun e => { e with layer := some (.plain l) }) = w.stack :=
            update_layer hg.find? hg.layer
          rw [hstill]
          rfl
    | cons y zs =>
      obtain ⟨ey, name', hey, hl', -, hout'⟩ := hbelow.1
      have hfind : ∀ x ≠ t, (w.stack.update t fun e => { e with layer := some (.plain l) }).find? x = w.stack.find? x :=
        fun x hx => find?_update_of_ne hx
      have hyt : y ≠ t := fun hc => (List.nodup_cons.1 hn).1 (by simp [hc])
      have hzt : z ≠ t := fun hc => hz (by simp [hc])
      have hlen : k + (z :: y :: zs).length = k + 1 + (y :: zs).length := by simp only [List.length_cons]; omega
      rw [hlen, ih hbelow hn (List.cons_ne_nil _ _)]
      have houter : (w.stack.update t fun e => { e with layer := some (.plain l) }).outer? y = some z :=
        outer?_eq_some.2 ⟨ey, (hfind y hyt).trans hey, hout'⟩
      refine drain_rises (s := w.stack.update t fun e => { e with layer := some (.plain l) }) rfl houter
        ((hfind z hzt).trans hez) hl hev fun qs => ?_
      cases ev with
      | recv data => exact settleRecv_handsOn ((hfind y hyt).trans hey) hl'
      | _ => rfl

/-- **When the lowest of a pile has failed, the pile fails**, one connection after the other. -/
theorem drain_fails (hb : b.Logless) {s : Slots H} {up : Option Handle} {r : Fault} (he : s.find? t = some e)
    (hpile : s.Pile t up zs) (hn : (zs ++ [t]).Nodup) (hup : ∀ y ∈ zs ++ [t], up ≠ some y)
    (hw : Without t [t] s w.stack) (hq : w.stack.queue = [⟨t, .error r, e.farewell⟩]) :
    ∃ u top, drain b A (freeEntry b A (j + 1)) (k + zs.length) w = drain b A (freeEntry b A (j + 1)) k u ∧ Same w u ∧
      s.find? (zs.headD t) = some top ∧ Without (zs.headD t) (zs ++ [t]) s u.stack ∧
      u.stack.queue = [⟨zs.headD t, .error r, top.farewell⟩] := by
  induction zs generalizing k up with
  | nil => exact ⟨w, e, rfl, .refl w, he, hw, hq⟩
  | cons z zs ih =>
    obtain ⟨⟨ez, name, hez, hl, hi, hout⟩, hbelow⟩ := hpile
    rw [List.cons_append, List.nodup_cons] at hn
    obtain ⟨hz, hn⟩ := hn
    obtain ⟨u, low, hdrain, hs, hlow, hwithout, hqueue⟩ := ih (k := k + 1) hbelow hn fun y hy hc =>
      hz (Option.some.inj hc ▸ hy)
    have houter := hbelow.outer_head
    have hroute : low.farewell = .layer z := by
      unfold outer? at houter
      rw [hlow] at houter
      unfold Entry.farewell
      rw [show low.outer = some z from houter]
    -- the connection above has lost the one that has failed
    have hlost : u.stack.find? z = some { ez with inner := none } := by
      rw [hwithout.find?, if_neg hz, if_pos houter, hez]
      show some (losing _ ez) = _
      unfold losing
      rw [if_pos hi]
    obtain ⟨w₁, hlayer, hfrees⟩ := withLayer_fails (w := { u with stack := { u.stack with queue := [] } }) (A := A) (r := r)
      hb hlost hl (.passthrough name) rfl (hout ▸ hup z List.mem_cons_self) rfl
    obtain ⟨v, hfree, hsame, hwithout', hqueue'⟩ := hfrees j
    refine ⟨v, ez, ?_, hs.trans ⟨hsame.net, hsame.shared, hsame.memory⟩, hez, ?_, ?_⟩
    · have hlen : k + (z :: zs).length = k + 1 + zs.length := by simp only [List.length_cons]; omega
      rw [hlen, hdrain, drain_cons hqueue, hroute]
      refine (bind_ok (u := v) (a := ()) ?_ _)
      exact (bind_ok ((hlayer _).trans (bind_ok hfree _)) _).trans rfl
    · exact hwithout.onto (hwithout'.congr (fun _ _ => rfl) rfl rfl rfl) houter hz
    · exact hqueue'

end Stack

end Conduit
