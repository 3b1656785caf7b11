import Conduit.Proofs.Tls.Prompt
import Conduit.Proofs.Tls.Refusals

/-!
# Reading on when the write half is closed

Once the write half is closed nothing more can be sent. An engine that has nothing to send, and needs to send nothing for
what it reads, reads on as before.

* `Serene`: a layer that is silent, and whose engine is calm.
* `call_serene`: **a silent layer whose engine is calm is never lost.**
* `Life.readsOn`: **closing the write half leaves the read half as it is**, for such engines.
-/

namespace Conduit

open Layer Layer.Act Secure

namespace Tls

variable {H : Host} {ops : EngineOps H.Engine H.Shared} {good : H.Engine → Prop} {plain : H.Engine → Bytes → Bytes}
  {calm : H.Engine → Bytes → Prop} {b me : Handle} {e₀ : H.Engine} {l₀ l l' : Layer H.Source H.Engine}
  {s s' : Session H.Engine} {d u : Trace H} {x y : Bytes}

/-- A layer that is silent, and whose engine is calm with what has arrived and with `x`, which will arrive. -/
structure Serene (calm : H.Engine → Bytes → Prop) (l : Layer H.Source H.Engine) (x : Bytes) : Prop where
  shaken : l.phase ≠ .handshaking
  kept : l.phase ≠ .failed
  txClosed : l.txClosed = true
  calm : l.rxState ≠ .closed → ∀ s, l.session = some s → calm s.engine (s.rx.toList ++ x)

theorem Serene.holding (h : Serene calm l x) (hc : l.rxState ≠ .closed → calm s.engine (s.rx.toList ++ y)) :
    Serene calm (l.holding s) y := by
  refine ⟨h.shaken, h.kept, h.txClosed, fun hr => ?_⟩
  rintro s' ⟨⟩
  exact hc hr

theorem Serene.ended (h : Serene calm l x) : Serene calm l.ended x :=
  ⟨h.shaken, h.kept, h.txClosed, fun hr => absurd rfl hr⟩

theorem Completes.serene {n : Nat} (h : Completes b s n u s') (hc : calm s.engine (s.rx.toList ++ x)) :
    calm s'.engine (s'.rx.toList ++ x) := by
  cases h with
  | partly | fully => exact hc

/-- A calm engine opens without failing. -/
theorem Opens.serene {r : Except Fault Decrypted} (ho : Opens ops b l s r u s') (hc : Calms ops calm)
    (h : Serene calm l x) : calm s'.engine (s'.rx.toList ++ x) ∧ ∃ y, r = .ok y := by
  cases ho with
  | intro hp hr hs hf ha n hd =>
    obtain ⟨ps, hw, -⟩ := hd.works
    exact hc.decrypt (h.calm hr s hs) hw

theorem Move.serene (h : Move ops b l d l') (hc : Calms ops calm) (hh : Serene calm l x) : Serene calm l' x := by
  cases h with
  | idle => exact hh
  | connecting => exact ⟨hh.shaken, hh.kept, hh.txClosed, hh.calm⟩
  | shaken hp | unshaken hp => exact absurd hp hh.shaken
  | sealed data sent hs hsent ht =>
    -- a silent layer encrypts nothing
    rw [hh.txClosed] at ht
    cases ht
  | flushed hs hd =>
    obtain ⟨ps, hw, -⟩ := hd.works
    exact hh.holding fun hr => hc.flush (hh.calm hr _ hs) hw
  | offered hp hr hs => exact hh.holding fun hr => (hh.calm hr _ hs :)
  | @opened s s₁ s' text u v ho hv =>
    exact hh.holding fun _ => hv.serene (s := s₁.opened text) (ho.serene hc hh).1
  | stalled ho hq hv => exact hh.holding fun _ => hv.serene (ho.serene hc hh).1
  | drained | finished => exact ⟨hh.shaken, hh.kept, hh.txClosed, fun hr => absurd rfl hr⟩
  | unopened ho =>
    -- this is how a session is lost whose engine has something to send
    obtain ⟨-, y, hy⟩ := ho.serene hc hh
    cases hy

theorem Moves.serene (h : Moves ops b l d l') (hc : Calms ops calm) (hh : Serene calm l x) : Serene calm l' x := by
  induction h with
  | refl => exact hh
  | step h _ ih => exact ih (h.serene hc hh)

theorem Enter.serene {m : Method} (h : Enter b m l d l') (hh : Serene calm l (m.arrived ++ x)) : Serene calm l' x := by
  cases h with
  | quiet hq =>
    rw [arrived_of_isQuiet hq] at hh
    exact hh
  | @arrived _ s data hs hr =>
    -- the engine was calm with this to come, so it is when it has come
    refine hh.holding fun hr => ?_
    have hmore : (s.rx.push data).toList ++ x = s.rx.toList ++ (data ++ x) := by
      rw [Segments.toList_push, List.append_assoc]
    rw [hmore]
    exact hh.calm hr s hs
  | dropped hn hu =>
    refine ⟨hh.shaken, hh.kept, hh.txClosed, fun hr s hs => ?_⟩
    rcases hn with hn | hn
    · rw [hn] at hs
      cases hs
    · exact absurd hn hr
  | finished hp hr => exact ⟨hh.shaken, hh.kept, hh.txClosed, fun _ => hh.calm (by rw [hr]; simp)⟩
  | unfinished | unasked | unrecved => exact hh
  | cut hp => exact absurd hp hh.shaken
  | lost =>
    refine ⟨hh.shaken, hh.kept, hh.txClosed, ?_⟩
    rintro _ s ⟨⟩
  | taken hs | refused hs => exact hh.holding fun hr => (hh.calm hr _ hs :)
  | recved hp hs => exact hh.holding fun hr => (hh.calm hr _ hs :)

theorem Turns.serene {m : Method} (h : Turns ops b m l d l') (hc : Calms ops calm)
    (hd : ∀ config name y, ⟨.newEngine config name, y⟩ ∉ d) (hh : Serene calm l (m.arrived ++ x)) :
    Serene calm l' x := by
  cases h with
  | moved he hm => exact hm.serene hc (he.serene hh)
  | drawn => exact absurd List.mem_cons_self (hd _ _ _)
  | listened =>
    refine ⟨by simp, by simp, hh.txClosed, ?_⟩
    rintro _ s ⟨⟩

/-- A layer that is silent already does nothing to be so. -/
theorem shutdownWrite_again (ht : l.txClosed = true) :
    Does b (shutdownWrite ops me) l fun _ _ l' => l' = l := by
  unfold shutdownWrite
  simp only [does_bind, does_get, ht, if_true]
  rw [does_pure]

/-- **A silent layer whose engine is calm is never lost.** -/
theorem call_serene {m : Method} {r : m.Reply} {t : Trace H} (hy : (Secure.step ops me m l).Yields t (r, l'))
    (hb : Over b t) (hm : m.listens = true) (hl : l.Sound) (hc : Calms ops calm)
    (hd : (⟨l, m, r, t, l'⟩ : Call H).drawsNone = true) (hh : Serene calm l (m.arrived ++ x)) : Serene calm l' x := by
  rcases Method.listens_cases hm with hm | rfl
  · exact (Call.turns hy hb hl hm).serene hc (Call.not_drawn_deeds hd) hh
  · have hsame : l' = l := shutdownWrite_again hh.txClosed t r l' hy hb
    rw [hsame]
    exact hh

/-- A layer that lets itself be silenced is, and is otherwise as far as it was. -/
theorem shutdownWrite_silences (hl : l.Sound) : Does b (shutdownWrite ops me) l fun r _ l' =>
    r = .ok () → l'.txClosed = true ∧ l'.phase = l.phase := by
  unfold shutdownWrite
  simp only [does_bind, does_get]
  split
  · rename_i ht
    rw [does_pure]
    exact fun _ => ⟨ht, rfl⟩
  · simp only [does_bind]
    refine sendCloseNotify_tells hl fun u l₁ hu => ?_
    have hphase : l₁.phase = l.phase := by rw [hu.spares.shell]
    simp only [does_bind, does_inner, does_ask]
    intro z
    cases z with
    | error f =>
      rw [does_pure]
      exact fun h => by cases h
    | ok _ =>
      simp only [does_bind, does_modify, does_get]
      split
      · rw [does_bind]
        refine afterRxClosed_does ?_
        rw [does_pure]
        exact fun _ => ⟨rfl, hphase⟩
      · rw [does_pure]
        exact fun _ => ⟨rfl, hphase⟩

/-- Whether a call closes the write half. -/
def Call.silences : Call H → Bool
  | ⟨_, .op (.shutdown .write), .ok _, _, _⟩ => true
  | _ => false

theorem call_silences {m : Method} {r : m.Reply} {t : Trace H} (hy : (Secure.step ops me m l).Yields t (r, l'))
    (hb : Over b t) (hl : l.Sound) (hs : (⟨l, m, r, t, l'⟩ : Call H).silences = true) :
    l'.txClosed = true ∧ l'.phase = l.phase := by
  unfold Call.silences at hs
  split at hs
  · rename_i heq
    cases heq
    exact shutdownWrite_silences hl t _ l' hy hb rfl
  · cases hs

/-- What is called of a silent layer whose engine is calm leaves it so. -/
theorem Life.serene {h : List (Call H)} (hl : Life ops b me l₀ h l) (hs₀ : l₀.Sound) (hc : Calms ops calm)
    (hm : ∀ d ∈ h, d.method.listens = true) (hd : ∀ d ∈ h, d.drawsNone = true) (hh : Serene calm l₀ (arrived h ++ x)) :
    Serene calm l x ∧ ∀ d ∈ h, d.after.phase ≠ .failed := by
  induction hl generalizing x with
  | start => exact ⟨hh, by simp⟩
  | @call h l l' m r t hl _ hy hb ih =>
    rw [arrived_append, arrived_singleton, List.append_assoc] at hh
    obtain ⟨hserene, hkept⟩ := ih (fun d hd' => hm d (by simp [hd'])) (fun d hd' => hd d (by simp [hd'])) hh
    have hcall := call_serene hy hb (hm ⟨l, m, r, t, l'⟩ (by simp)) (hl.sound hs₀) hc (hd _ (by simp)) hserene
    refine ⟨hcall, List.forall_mem_append.2 ⟨hkept, ?_⟩⟩
    rintro d hd'
    rw [List.mem_singleton.1 hd']
    exact hcall.kept

/-- A session that is not lost does not end the stream because of it. -/
theorem Call.not_ends_failed {c : Call H} (h : c.after.phase ≠ .failed) : .ends true ∉ c.happenings := by
  unfold Call.happenings handed
  intro hmem
  rcases List.mem_append.1 hmem with hmem | hmem
  · unfold Method.happenings at hmem
    split at hmem <;> simp at hmem
  · obtain ⟨y, -, hy⟩ := List.mem_filterMap.1 hmem
    unfold handsUp at hy
    split at hy
    · cases hy
    · simp [h] at hy
    · cases hy

/-- **Closing the write half leaves the read half as it is**, when the engine has nothing left to send and sends nothing
for what it reads: the session is not lost; what happens is allowed at every moment, so the plaintext of what arrives is
handed up in order and each byte once, and the end of the stream when everything was accepted; and nothing waits: what is
not accepted is out, or the receiver has refused it. -/
theorem Life.readsOn {past future : List (Call H)} {c : Call H} (hl : Life ops b me l₀ (past ++ c :: future) l)
    (hr : Reads ops good plain) (hu : Unmoved ops good plain) (hf : Fruitful ops) (hc : Calms ops calm)
    (h₀ : Begins l₀ e₀) (hg : good e₀) (hn : 0 < l₀.config.options.rxChunkSize)
    (hm : ∀ d ∈ past ++ c :: future, d.method.listens = true) (hd : ∀ d ∈ future, d.drawsNone = true)
    (hs : c.silences = true) (hp : c.before.phase = .established)
    (hcalm : ∀ s, c.after.session = some s → calm s.engine (s.rx.toList ++ arrived future)) :
    (∀ d ∈ future, d.after.phase ≠ .failed ∧ .ends true ∉ d.happenings) ∧
      (∀ seen x rest, (past ++ c :: future).flatMap Call.happenings = seen ++ x :: rest →
        (Reception.after {} seen).Allows (plain e₀) x) ∧
      (l.phase ≠ .listening → (∀ d ∈ past ++ c :: future, frees d.trace = false) →
        ∀ r, r = Reception.after {} ((past ++ c :: future).flatMap Call.happenings) →
          r.ended = true ∨ r.offer.isSome ∨ r.refused.isSome ∨ r.accepted = plain e₀ r.arrived) := by
  obtain ⟨horder, htracks, hprompt⟩ := hl.follows hr hu hf h₀ hg hn hm
  have hat := hl.amid
  have hsound : c.before.Sound := hat.before.sound h₀.sound
  -- the layer is silent from here on, and its engine is calm
  obtain ⟨htx, hphase⟩ := call_silences hat.yields hat.around hsound hs
  have hserene : Serene calm c.after (arrived future ++ []) := by
    refine ⟨by rw [hphase, hp]; simp, by rw [hphase, hp]; simp, htx, fun _ => ?_⟩
    rw [List.append_nil]
    exact hcalm
  obtain ⟨hend, hkept⟩ := hat.after.serene (Call.sound hat.yields hat.around hsound) hc
    (fun y hy => hm y (by simp [hy])) hd hserene
  refine ⟨fun d hd' => ⟨hkept d hd', Call.not_ends_failed (hkept d hd')⟩, fun seen x rest heq => ?_,
    fun hlisten hfree r heq => ?_⟩
  · rw [heq, Reception.orderly_append] at horder
    exact horder.2.1
  · have ht := htracks hfree
    rw [← heq] at ht hprompt
    have hlp : l.phase = .established := by
      cases hlp : l.phase with
      | established => rfl
      | handshaking => exact absurd hlp hend.shaken
      | failed => exact absurd hlp hend.kept
      | listening => exact absurd hlp hlisten
    exact ht.nothing_waits hprompt hlp

/-- A client shakes hands and closes its write half. Then two bytes of plaintext arrive, and the end of the stream. -/
def Toy.halfClosed : List Method :=
  Toy.exchange.take 1 ++ [.op (.shutdown .write),
    .op (.lower (.recv (Toy.record 0x17 ([104, 105] ++ List.replicate 8 0xAA)))), .settled (.ok ()), .op (.lower .eof)]

/-- What happens to its receiver. -/
def Toy.afterglow : List Happening :=
  [.arrives (Toy.letters 's' 1), .arrives (Toy.record 0x17 ([104, 105] ++ List.replicate 8 0xAA)), .offers [104, 105],
    .settles true, .ends false]

theorem Life.readsOn_halfClosed : ∃ past c future, Toy.calls Toy.halfClosed = past ++ c :: future ∧ c.silences = true ∧
    (∀ d ∈ future, d.after.phase ≠ .failed ∧ .ends true ∉ d.happenings) ∧
      (Toy.calls Toy.halfClosed).flatMap Call.happenings = Toy.afterglow ∧
        (Reception.after {} (Toy.afterglow.take 4)).Allows (Toy.reading Toy.young) (.ends false) := by
  have hlife := Toy.life Toy.halfClosed (by decide +kernel)
  have hseen : (Toy.calls Toy.halfClosed).map (fun c => (c.silences, c.drawsNone, c.method.arrived)) =
      [(false, true, Toy.letters 's' 1), (true, true, []),
        (false, true, Toy.record 0x17 ([104, 105] ++ List.replicate 8 0xAA)), (false, true, []), (false, true, [])] := by
    decide +kernel
  have hlistens : ∀ c ∈ Toy.calls Toy.halfClosed, c.method.listens = true := by decide +kernel
  have hphase : (Toy.calls Toy.halfClosed)[1]?.map (·.before.phase) = some .established := by decide +kernel
  have hengine : (Toy.calls Toy.halfClosed)[1]?.map (fun c => c.after.session.map fun s =>
      s.engine.done && s.engine.profile.faults.isEmpty && s.engine.profile.tag == 8 && s.engine.out.isEmpty &&
        s.rx.toList.isEmpty) = some (some true) := by decide +kernel
  have happened : (Toy.calls Toy.halfClosed).flatMap Call.happenings = Toy.afterglow := by decide +kernel
  rw [happened]
  generalize Toy.calls Toy.halfClosed = h at *
  simp only [List.map_eq_cons_iff, List.map_eq_nil_iff] at hseen
  obtain ⟨a, _, rfl, ha, c, _, rfl, hc, x, _, rfl, hx, y, _, rfl, hy, z, _, rfl, hz, rfl⟩ := hseen
  simp only [Prod.mk.injEq] at ha hc hx hy hz
  obtain ⟨s, hs, hrest⟩ := Option.map_eq_some_iff.1 (Option.some.inj hengine)
  simp only [Bool.and_eq_true, List.isEmpty_iff, beq_iff_eq] at hrest
  obtain ⟨⟨⟨⟨hdone, hfaults⟩, htag⟩, hout⟩, hrx⟩ := hrest
  have harrived : arrived [x, y, z] = Toy.record 0x17 ([104, 105] ++ List.replicate 8 0xAA) := by
    simp [arrived, hx.2.2, hy.2.2, hz.2.2]
  have hmild : Toy.Mild 8 (Toy.record 0x17 ([104, 105] ++ List.replicate 8 0xAA)) :=
    .record (by decide +kernel : Toy.cut? _ = some (0x17, [104, 105] ++ List.replicate 8 0xAA, [])) (by decide +kernel)
      (.part (by decide +kernel))
  have hcalm : ∀ s, c.after.session = some s → Toy.Calm 8 s.engine (s.rx.toList ++ arrived [x, y, z]) := by
    intro s' hs'
    cases hs.symm.trans hs'
    rw [hrx, harrived]
    exact ⟨hdone, hfaults, htag, hout, hmild⟩
  have hwhole : Life Toy.ops Toy.below Toy.me Toy.client ([a] ++ c :: [x, y, z]) (Toy.left Toy.halfClosed) := hlife
  obtain ⟨hkept, hallowed, -⟩ := Life.readsOn hwhole Toy.reads Toy.unmoved Toy.fruitful Toy.calms ⟨rfl, rfl, rfl⟩
    trivial (by decide) hlistens (by simp [hx, hy, hz]) hc.1 (Option.some.inj hphase) hcalm
  exact ⟨[a], c, [x, y, z], rfl, hc.1, hkept, rfl, hallowed _ _ [] happened⟩

/-- The connection below lets nothing more be sent. -/
def Toy.shutOff : (r : Layer.Req Toy.host) → r.Ans
  | .ask _ (.write _ _) => (.error .closed : Outcome)
  | r => Toy.obliging r

/-- A server closes its write half when a ticket is still to be sent. Then two bytes of plaintext arrive. -/
def Toy.cutShort : List (((r : Layer.Req Toy.host) → r.Ans) × List Method) :=
  [(Toy.obliging, [.op (.lower (.recv (Toy.letters 'h' 20)))]),
    (Toy.full, [.op (.lower (.recv (Toy.letters 'f' 12))), .op (.shutdown .write)]),
    (Toy.shutOff, [.op (.lower (.recv (Toy.record 0x17 ([104, 105] ++ List.replicate 8 0xAA))))])]

/-- When something is still to be sent, the session is lost for what arrives. -/
theorem Life.readsOn_lost :
    Life (H := Toy.host) (Toy.ops (V := Unit)) Toy.below Toy.me (Toy.server [100])
      (Toy.staged Toy.cutShort (Toy.server [100])).1 (Toy.staged Toy.cutShort (Toy.server [100])).2 ∧
    (Toy.staged Toy.cutShort (Toy.server [100])).1.map (fun c => (c.silences, c.before.phase, c.happenings)) =
      [(false, .handshaking, [.arrives (Toy.letters 'h' 20)]), (false, .handshaking, [.arrives (Toy.letters 'f' 12)]),
        (true, .established, []),
        (false, .established, [.arrives (Toy.record 0x17 ([104, 105] ++ List.replicate 8 0xAA)), .ends true])] ∧
    (Toy.staged Toy.cutShort (Toy.server [100])).2.phase = .failed := by
  have hlife := Toy.staged_life Toy.cutShort (Toy.server [100]) (by decide +kernel) (by decide +kernel)
  exact ⟨hlife, by decide +kernel, by decide +kernel⟩

end Tls

end Conduit
