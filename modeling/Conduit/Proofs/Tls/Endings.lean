import Conduit.Proofs.Tls.Departures
import Conduit.Proofs.Tls.Flows
import Conduit.Proofs.Tls.Prompt

/-!
# What the peer hears by the end

Two TLS layers, of which the one receives what the other sends. When the one is closed, or its write half is, the other's
receiver has accepted all that was written, in order, and is told the end of the stream once and last: if the engine has
sent all it had when the connection below is asked for its end. Otherwise what it had left is lost.

* `Concludes`: what a receiver has accepted when it is told the end of the stream.
* `Abreast`: the end of the stream waits only for a verdict.
* `Life.heard_out`: **what the peer has heard of a connection that was closed.**
-/

namespace Conduit

open Layer Layer.Act Secure

/-- Whether a method brings the peer's end. -/
def Method.isEnd : Method → Bool
  | .op (.lower .eof) => true
  | _ => false

theorem Method.listens_of_stays {m : Method} (h : m.leaves = false) : m.listens = true := by
  unfold Method.listens
  split
  · rfl
  · rw [h]
    rfl

namespace Reception

variable {plain : Bytes → Bytes} {r : Reception} {hs : List Happening}

theorem ended_after (h : r.ended = true) : (r.after hs).ended = true := by
  induction hs generalizing r with
  | nil => exact h
  | cons x hs ih =>
    refine ih ?_
    cases x with
    | settles taken => cases taken <;> exact h
    | ends failed => rfl
    | _ => exact h

/-- Once the receiver was told the end of the stream, it is told and offered no more. -/
theorem Orderly.last (h : Orderly plain r hs) (he : r.ended = true) :
    (∀ failed, .ends failed ∉ hs) ∧ ∀ data, .offers data ∉ hs := by
  induction hs generalizing r with
  | nil => simp
  | cons x hs ih =>
    obtain ⟨hx, hs⟩ := h
    obtain ⟨hends, hoffers⟩ := ih hs (ended_after he : (r.after [x]).ended = true)
    have hnot : r.ended ≠ false := by simp [he]
    refine ⟨fun failed hmem => ?_, fun data hmem => ?_⟩
    · rcases List.mem_cons.1 hmem with rfl | hmem
      · exact hnot hx.1
      · exact hends failed hmem
    · rcases List.mem_cons.1 hmem with rfl | hmem
      · exact hnot hx.1
      · exact hoffers data hmem

end Reception

namespace Tls

section Layers

variable {H : Host} {ops : EngineOps H.Engine H.Shared} {good : H.Engine → Prop} {plain : H.Engine → Bytes → Bytes}
  {b me : Handle} {e₀ : H.Engine} {l₀ l l' : Layer H.Source H.Engine} {s s' : Session H.Engine} {d u : Trace H}
  {r : Reception} {failed : Bool} {x : Bytes}

/-! ## The end of the stream -/

/-- What a receiver has accepted that was told the end of the stream, when `x` is still to arrive: the plaintext of all
that there will be. Once the peer's end has come, as `fin` says, nothing more arrives, and the layer knows of it. -/
structure Concludes (plain : H.Engine → Bytes → Bytes) (e₀ : H.Engine) (fin : Bool) (r : Reception)
    (l : Layer H.Source H.Engine) (x : Bytes) : Prop where
  heard : r.ended = true → l.phase ≠ .failed → l.phase ≠ .listening → plain e₀ (r.arrived ++ x) = r.accepted
  last : l.rxState = .eofQueued → x = []
  known : fin = true → l.phase ≠ .handshaking ∧ (l.phase = .established → l.rxState ≠ .opened)

variable {fin : Bool}

/-- Who has seen as much of the stream, and of its end, is where it was. -/
theorem Concludes.of_same {r' : Reception} (h : Concludes plain e₀ fin r l x) (he : r'.ended = r.ended)
    (ha : r'.arrived = r.arrived) (hc : r'.accepted = r.accepted) (hp : l'.phase = l.phase)
    (hr : l'.rxState = l.rxState) : Concludes plain e₀ fin r' l' x := by
  refine ⟨?_, ?_, ?_⟩
  · rw [he, ha, hc, hp]
    exact h.heard
  · rw [hr]
    exact h.last
  · rw [hp, hr]
    exact h.known

/-- A receiver that was just told the end of the stream. -/
theorem Concludes.ends (failed : Bool) (hp : l.phase = .established) (ha : plain e₀ (r.arrived ++ x) = r.accepted)
    (hr : l.rxState = .closed) : Concludes plain e₀ fin (r.next (.ends failed)) l x := by
  refine ⟨fun _ _ _ => ha, fun hq => ?_, fun _ => ⟨by rw [hp]; simp, fun _ => by rw [hr]; simp⟩⟩
  rw [hr] at hq
  cases hq

/-- When a session has failed, nothing is said of what was accepted. -/
theorem Concludes.of_failed (hp : l.phase = .failed) (hr : l.rxState = .closed) : Concludes plain e₀ fin r l x := by
  refine ⟨fun _ hn => absurd hp hn, fun hq => ?_, fun _ => ⟨by rw [hp]; simp, fun hest => ?_⟩⟩
  · rw [hr] at hq
    cases hq
  · rw [hp] at hest
    cases hest

theorem Move.concludes (h : Move ops b l d l') (hr : Reads ops good plain) (ht : Tracks good plain e₀ r l)
    (hc : Concludes plain e₀ fin r l x) : Concludes plain e₀ fin (r.after (handed failed d)) l' x := by
  cases h with
  | idle hx =>
    rw [hx.handed_eq]
    exact hc
  | connecting | sealed => exact hc.of_same rfl rfl rfl rfl rfl
  | @shaken s s' p u v hp hs hd y hv =>
    have hh : handed failed (u ++ ⟨.ask b .output, y⟩ :: v) = [] := by
      rw [handed_append, hd.handed_eq, List.nil_append, ← List.singleton_append, handed_append, hv.handed_eq]
      rfl
    rw [hh]
    refine ⟨fun he _ _ => hc.heard he (by rw [hp]; simp) (by rw [hp]; simp), hc.last, fun hf => ?_⟩
    exact absurd hp (hc.known hf).1
  | unshaken | unopened => exact .of_failed rfl rfl
  | flushed hs hd =>
    rw [hd.handed_eq]
    exact hc.of_same rfl rfl rfl rfl rfl
  | offered => exact hc.of_same rfl rfl rfl rfl rfl
  | opened ho hv | stalled ho _ hv =>
    rw [handed_append, ho.handed_eq, hv.handed_eq]
    exact hc.of_same rfl rfl rfl rfl rfl
  | drained ho hq hv =>
    obtain ⟨hfol, he, hoff, href, ha⟩ := ho.follows ht
    rw [handed_append, handed_append, ho.handed_eq, hv.handed_eq]
    cases ho with
    | intro hp hrx hs hfl _ n hd =>
      obtain ⟨ps, hw, -⟩ := hd.works
      obtain ⟨-, hplain, -⟩ := hr.wouldBlock hfol.good hw
      refine .ends failed hp ?_ rfl
      rw [hc.last hq, List.append_nil, hfol.whole, ha, hplain]
      simp
  | finished ho hv =>
    obtain ⟨hfol, he, hoff, href, ha⟩ := ho.follows ht
    rw [handed_append, handed_append, ho.handed_eq, hv.handed_eq]
    cases ho with
    | intro hp hrx hs hfl _ n hd =>
      obtain ⟨ps, hw, -⟩ := hd.works
      -- after the notice there is no plaintext, whatever arrives
      have hplain := hr.peerClosed hfol.good hw x
      refine .ends failed hp ?_ rfl
      rw [hfol.stream, ha, hplain]
      simp

theorem Moves.concludes (h : Moves ops b l d l') (hr : Reads ops good plain) (hf : l'.phase = .failed → failed = true)
    (ht : Tracks good plain e₀ r l) (hc : Concludes plain e₀ fin r l x) :
    Concludes plain e₀ fin (r.after (handed failed d)) l' x := by
  induction h generalizing r with
  | refl => exact hc
  | step h hs ih =>
    rw [handed_append, Reception.after_append]
    exact ih hf (h.tracks hr (fun hph => hf (hs.stays_failed hph)) ht).2 (h.concludes hr ht hc)


theorem Enter.concludes {m : Method} (h : Enter b m l d l') (ht : Tracks good plain e₀ r l) (hfree : frees d = false)
    (hend : m.isEnd = true → x = []) (hc : Concludes plain e₀ fin r l (m.arrived ++ x)) :
    Concludes plain e₀ (fin || m.isEnd) (r.after m.happenings) l' x := by
  have hsettled : r.ended = true → r.offer.getD [] = [] := fun he => by rw [ht.settled he]; rfl
  -- whoever was told the end of the stream has settled everything, so a verdict changes nothing that was accepted
  have hverdict : ∀ v : Outcome, Concludes plain e₀ fin r l x → l'.phase = l.phase → l'.rxState = l.rxState →
      Concludes plain e₀ (fin || Method.isEnd (.settled v)) (r.after (Method.happenings (.settled v))) l' x := by
    intro v hc hp hrx
    rw [show Method.isEnd (.settled v) = false from rfl, Bool.or_false]
    cases v with
    | ok _ =>
      refine ⟨fun he => ?_, ?_, ?_⟩
      · show l'.phase ≠ .failed → l'.phase ≠ .listening → plain e₀ (r.arrived ++ x) = r.accepted ++ r.offer.getD []
        rw [hsettled he, List.append_nil, hp]
        exact hc.heard he
      · rw [hrx]
        exact hc.last
      · rw [hp, hrx]
        exact hc.known
    | error f => exact hc.of_same rfl rfl rfl hp hrx
  cases h with
  | quiet hq =>
    have hnone : m.isEnd = false := by
      unfold Method.isEnd
      split
      · cases hq
      · rfl
    rw [happenings_of_isQuiet hq, hnone, Bool.or_false]
    rw [arrived_of_isQuiet hq] at hc
    exact hc
  | @arrived _ s data hs hrx =>
    rw [show Method.isEnd (.op (.lower (.recv data))) = false from rfl, Bool.or_false]
    refine ⟨fun he hp hl => ?_, fun hq => (List.append_eq_nil_iff.1 (hc.last hq)).2, hc.known⟩
    have hheard := hc.heard he hp hl
    rw [← List.append_assoc] at hheard
    exact hheard
  | @dropped _ data u hn hu =>
    rw [show Method.isEnd (.op (.lower (.recv data))) = false from rfl, Bool.or_false]
    refine ⟨fun he hp hl => ?_, fun hq => (List.append_eq_nil_iff.1 (hc.last hq)).2, hc.known⟩
    have hheard := hc.heard he hp hl
    rw [← List.append_assoc] at hheard
    exact hheard
  | finished hp hrx =>
    refine ⟨hc.heard, fun _ => hend rfl, fun _ => ⟨?_, fun _ => by simp⟩⟩
    rw [hp]
    simp
  | unfinished hp hrx => exact ⟨hc.heard, hc.last, fun _ => ⟨hp, hrx⟩⟩
  | cut | lost => simp [frees] at hfree
  | taken hs hf => exact hverdict (.ok ()) hc rfl rfl
  | @refused _ s n f hs hf => exact hverdict (.error f) hc rfl rfl
  | unasked => exact hverdict _ hc rfl rfl
  | recved | unrecved =>
    rw [show Method.isEnd (.op (.recved _)) = false from rfl, Bool.or_false]
    exact hc.of_same rfl rfl rfl rfl rfl

theorem Turns.concludes {m : Method} {f : Bool} (h : Turns ops b m l d l') (hr : Reads ops good plain) (hl : l.Sound)
    (hf : l'.phase = .failed → f = true) (hfree : frees d = false) (hend : m.isEnd = true → x = [])
    (ht : Tracks good plain e₀ r l) (hc : Concludes plain e₀ fin r l (m.arrived ++ x)) :
    Concludes plain e₀ (fin || m.isEnd) (r.after (m.happenings ++ handed f d)) l' x := by
  rw [Reception.after_append]
  cases h with
  | @moved _ _ l₁ _ d₁ d₂ he hmv =>
    rw [frees_append, Bool.or_eq_false_iff] at hfree
    obtain ⟨h₁, hs⟩ := he.tracks hl ht
    rw [handed_append, h₁, List.nil_append]
    rcases hs with ⟨-, hgone⟩ | ht₁
    · rw [hfree.1] at hgone
      cases hgone
    · exact hmv.concludes hr hf ht₁ (he.concludes ht hfree.1 hend hc)
  | drawn =>
    rw [show Method.isEnd (.op (.connect _)) = false from rfl, Bool.or_false]
    exact hc.of_same rfl rfl rfl rfl rfl
  | listened =>
    rw [show Method.isEnd (.op (.listen _)) = false from rfl, Bool.or_false]
    refine ⟨fun _ _ hn => absurd rfl hn, hc.last, fun _ => ⟨by simp, fun hp => ?_⟩⟩
    cases hp

/-- Whether the peer's end has come in some calls. -/
def finished (h : List (Call H)) : Bool := h.any (·.method.isEnd)

/-- In a life in which the connection is not let go, the receiver has accepted all there will be when it is told the end of
the stream; if nothing arrives after the peer's end. -/
theorem Life.concludes {h : List (Call H)} (hl : Life ops b me l₀ h l) (hr : Reads ops good plain)
    (hu : Unmoved ops good plain) (hf : Fruitful ops) (h₀ : Begins l₀ e₀) (hg : good e₀)
    (hn : 0 < l₀.config.options.rxChunkSize) (hm : ∀ c ∈ h, c.method.leaves = false)
    (hfree : ∀ c ∈ h, frees c.trace = false)
    (hend : ∀ past c future, h = past ++ c :: future → c.method.isEnd = true → arrived future ++ x = []) :
    Concludes plain e₀ (finished h) (Reception.after {} (h.flatMap Call.happenings)) l x := by
  induction hl generalizing x with
  | start =>
    refine ⟨fun he => (by cases he), fun hq => ?_, fun hf => (by cases hf)⟩
    rw [h₀.opened] at hq
    cases hq
  | @call h l l' m y t hl hbefore hy hb ih =>
    have hm' : ∀ c ∈ h, c.method.leaves = false := fun c hc => hm c (by simp [hc])
    have hlistens : ∀ c ∈ h, c.method.listens = true := fun c hc => Method.listens_of_stays (hm' c hc)
    have htracks := (hl.follows hr hu hf h₀ hg hn hlistens).2.1 hbefore
    have hc := ih (x := m.arrived ++ x) hm' hbefore fun past c future heq hc => by
      have hrest := hend past c (future ++ [⟨l, m, y, t, l'⟩]) (by rw [heq]; simp) hc
      simpa using hrest
    have hlast : m.isEnd = true → x = [] := fun hm => hend h ⟨l, m, y, t, l'⟩ [] rfl hm
    have hturn := Call.turns hy hb (hl.sound h₀.sound) (hm ⟨l, m, y, t, l'⟩ (by simp))
    have hgoes : frees (deeds t) = false := by
      rw [frees_deeds]
      exact hfree ⟨l, m, y, t, l'⟩ (by simp)
    have hcall := hturn.concludes hr (hl.sound h₀.sound) (f := decide (l'.phase = .failed)) decide_eq_true hgoes hlast
      htracks hc
    rw [handed_deeds] at hcall
    unfold finished at hcall ⊢
    rw [List.flatMap_append, List.flatMap_singleton, Reception.after_append, List.any_append, List.any_cons, List.any_nil,
      Bool.or_false]
    exact hcall

theorem Life.config_eq {h : List (Call H)} (hl : Life ops b me l₀ h l) (hs₀ : l₀.Sound) : l.config = l₀.config := by
  induction hl with
  | start => rfl
  | call hl _ hy hb ih => exact (Call.config hy hb (hl.sound hs₀)).trans ih

/-! ## Nothing waits for long -/

/-- Plaintext flows through the layer as far as its receiver has seen: what it awaits a verdict on is what was offered,
and what it holds besides was refused. -/
def Abreast (r : Reception) (l : Layer H.Source H.Engine) : Prop :=
  l.Flows (fun _ _ => False) (fun d => r.refused = some d) r.offer.toList

/-- Every engine leaves nothing that is nothing. -/
theorem exhausts_false : Exhausts ops fun _ _ => False where
  decrypt _ := id
  flush _ _ := id
  encrypt _ := id
  closeNotify _ := id

/-- What is out after a run is what was handed up last, if anything was; otherwise all is as it was. -/
theorem after_handed (failed : Bool) (t : Trace H) (r : Reception) :
    (r.after (handed failed t)).offer = (t.flatMap (·.req.parcel)).getLast?.or r.offer ∧
      (t.flatMap (·.req.parcel) = [] → (r.after (handed failed t)).refused = r.refused) := by
  induction t generalizing r with
  | nil => exact ⟨rfl, fun _ => rfl⟩
  | cons x t ih =>
    -- what hands nothing up changes nothing
    have hskip : ∀ r' : Reception, r'.offer = r.offer → r'.refused = r.refused → x.req.parcel = [] →
        r.after (handed failed (x :: t)) = r'.after (handed failed t) →
        (r.after (handed failed (x :: t))).offer = ((x :: t).flatMap (·.req.parcel)).getLast?.or r.offer ∧
          ((x :: t).flatMap (·.req.parcel) = [] → (r.after (handed failed (x :: t))).refused = r.refused) := by
      intro r' ho hr hx heq
      rw [List.flatMap_cons, hx, List.nil_append, heq, ← ho, ← hr]
      exact ih r'
    obtain ⟨req, ans⟩ := x
    cases req with
    | emit e =>
      cases e with
      | recv data =>
        obtain ⟨ho, -⟩ := ih (r.next (.offers data))
        refine ⟨?_, fun hnil => by cases hnil⟩
        show ((r.next (.offers data)).after (handed failed t)).offer = (data :: t.flatMap (·.req.parcel)).getLast?.or r.offer
        rw [ho, List.getLast?_cons]
        cases (t.flatMap (·.req.parcel)).getLast? <;> rfl
      | eof => exact hskip (r.next (.ends failed)) rfl rfl rfl rfl
      | _ => exact hskip r rfl rfl rfl rfl
    | _ => exact hskip r rfl rfl rfl rfl

theorem Abreast.of_flows {t : Trace H} (h : l.Flows (fun _ _ => False) (fun d => r.refused = some d)
    (r.offer.toList ++ t.flatMap (·.req.parcel))) : Abreast (r.after (handed failed t)) l := by
  obtain ⟨ho, hrefused⟩ := after_handed failed t r
  unfold Abreast
  by_cases hnone : t.flatMap (·.req.parcel) = []
  · rw [ho, hrefused hnone, hnone]
    rw [hnone, List.append_nil] at h
    exact h
  · have hlast : (r.after (handed failed t)).offer = some ((t.flatMap (·.req.parcel)).getLast hnone) := by
      rw [ho, List.getLast?_eq_getLast_of_ne_nil hnone]
      rfl
    rw [hlast]
    refine ⟨⟨h.wellFormed, fun hp => absurd (List.append_eq_nil_iff.1 (h.early hp)).2 hnone, fun hr => ?_, h.calm⟩,
      fun _ _ hnil => by cases hnil⟩
    obtain ⟨s, hs, howes⟩ := h.owes hr
    refine ⟨s, hs, .inr ?_⟩
    rcases howes with ⟨hnil, -⟩ | ⟨d, hd, hrest⟩
    · exact absurd (List.append_eq_nil_iff.1 hnil).2 hnone
    · -- one delivery is out at a time
      have hone : t.flatMap (·.req.parcel) = [d] := by
        rcases List.append_eq_singleton_iff.1 hd with ⟨-, hone⟩ | ⟨-, hnil⟩
        · exact hone
        · exact absurd hnil hnone
      refine ⟨d, ?_, hrest⟩
      simp only [hone, List.getLast_singleton, Option.toList_some]

/-- A verdict that nobody waits for changes nothing. -/
theorem settle_idle (ha : Abreast r l) (ho : r.offer = none) (v : Outcome) (new : Layer H.Source H.Engine → Prop) :
    Emits new (Secure.step ops me (.settled v)) l false [] fun _ l' _ out => l' = l ∧ out = [] := by
  unfold Abreast at ha
  rw [ho] at ha
  show Emits new (settle ops me v) l false [] _
  unfold settle
  simp only [emits_bind, emits_get]
  split
  · exact ⟨rfl, rfl⟩
  · rename_i s hs
    rw [ha.toHolds.inFlight_none hs]
    exact ⟨rfl, rfl⟩

/-- Whatever a layer is called for that does not end the connection, it stays abreast. -/
theorem call_abreast {m : Method} {y : m.Reply} {t : Trace H} (hy : (Secure.step ops me m l).Yields t (y, l'))
    (hf : Fruitful ops) (hm : m.leaves = false) (hfree : frees t = false) (h : Abreast r l) :
    Abreast (r.after (m.happenings ++ handed failed t)) l' := by
  rw [Reception.after_append]
  have hgoes : (false || t.any (·.req.lets)) = false := hfree
  by_cases hv : ∃ v, m = .settled v
  · obtain ⟨v, rfl⟩ := hv
    cases ho : r.offer with
    | none =>
      have hidle : l' = l ∧ [] ++ t.flatMap (·.req.parcel) = [] := (settle_idle h ho v fun _ => True).yields hy
      obtain ⟨rfl, hnone⟩ := hidle
      refine .of_flows ?_
      unfold Abreast at h
      rw [List.nil_append] at hnone
      rw [ho] at h
      rw [hnone]
      -- there was nothing to settle
      cases v with
      | ok _ => exact h
      | error f =>
        have hsettled : (r.after (Method.happenings (.settled (.error f)))).refused = r.refused := by
          show (r.offer <|> r.refused) = r.refused
          rw [ho]
          rfl
        rw [hsettled]
        exact h
    | some d =>
      unfold Abreast at h
      rw [ho] at h
      have hrefused : ∀ f, v = .error f → (r.after (Method.happenings (.settled v))).refused = some d := by
        rintro f rfl
        show (r.offer <|> r.refused) = some d
        rw [ho]
        rfl
      have hnone : (r.after (Method.happenings (.settled v))).offer = none := by
        cases v <;> rfl
      have hemits : Emits (fun _ => True) (Secure.step ops me (.settled v)) l false [] fun _ l' flag out =>
          Lets (fun _ _ => False) (fun x => (r.after (Method.happenings (.settled v))).refused = some x) l false l' flag out :=
        settle_flows exhausts_false hf h hrefused
      refine .of_flows ?_
      rw [hnone]
      exact (hemits.yields hy).flows
  · have hsame : (r.after m.happenings).offer = r.offer ∧ (r.after m.happenings).refused = r.refused := by
      unfold Method.happenings
      split
      · exact ⟨rfl, rfl⟩
      · exact absurd ⟨_, rfl⟩ hv
      · exact absurd ⟨_, rfl⟩ hv
      · exact ⟨rfl, rfl⟩
    have ha : m ≠ .op .abort := by
      rintro rfl
      cases hm
    have hd : m ≠ .dealloc := by
      rintro rfl
      cases hm
    have hflows := ((step_flows exhausts_false hf h ha hd fun v hv' => hv ⟨v, hv'⟩).yields hy hgoes).flows
    refine .of_flows ?_
    rw [hsame.1, hsame.2]
    exact hflows

theorem Life.abreast {h : List (Call H)} (hl : Life ops b me l₀ h l) (hf : Fruitful ops) (h₀ : Begins l₀ e₀)
    (hm : ∀ c ∈ h, c.method.leaves = false) (hfree : ∀ c ∈ h, frees c.trace = false) :
    Abreast (Reception.after {} (h.flatMap Call.happenings)) l := by
  induction hl with
  | start =>
    have hfresh : l₀.Fresh := ⟨h₀.phase, fun s hs => ⟨e₀, Option.some.inj (hs.symm.trans h₀.session)⟩⟩
    exact hfresh.flows
  | @call h l l' m y t hl hbefore hy hb ih =>
    rw [List.flatMap_append, List.flatMap_singleton, Reception.after_append]
    exact call_abreast hy hf (hm ⟨l, m, y, t, l'⟩ (by simp)) (hfree ⟨l, m, y, t, l'⟩ (by simp))
      (ih (fun c hc => hm c (by simp [hc])) hbefore)

/-- What has arrived is what the calls brought. -/
theorem after_arrived (h : List (Call H)) (r : Reception) :
    (r.after (h.flatMap Call.happenings)).arrived = r.arrived ++ arrived h := by
  have hhanded : ∀ (f : Bool) (t : Trace H) (r : Reception), (r.after (handed f t)).arrived = r.arrived := by
    intro f t
    induction t with
    | nil => exact fun r => rfl
    | cons x t ih =>
      intro r
      unfold handed
      rw [List.filterMap_cons]
      cases hx : handsUp f x with
      | none => exact ih r
      | some y =>
        refine (ih (r.next y)).trans ?_
        unfold handsUp at hx
        split at hx
        · cases hx
          rfl
        · cases hx
          rfl
        · cases hx
  induction h generalizing r with
  | nil => exact (List.append_nil _).symm
  | cons c h ih =>
    have hmethod : ∀ m : Method, (r.after m.happenings).arrived = r.arrived ++ m.arrived := by
      intro m
      have hnone : r.arrived = r.arrived ++ [] := (List.append_nil _).symm
      cases m with
      | op o =>
        cases o with
        | lower e =>
          cases e with
          | recv data => rfl
          | _ => exact hnone
        | _ => exact hnone
      | settled v =>
        cases v with
        | ok _ => exact hnone
        | error f => exact hnone
      | dealloc => exact hnone
    have hcall : (r.after c.happenings).arrived = r.arrived ++ c.method.arrived := by
      unfold Call.happenings
      rw [Reception.after_append, hhanded, hmethod]
    rw [List.flatMap_cons, Reception.after_append, ih, hcall, List.append_assoc]
    rfl

/-! ## Two layers -/

/-- The connection below brings what was sent on the other side, in order, and the peer's end behind all of it. -/
structure Conveys (sent : Bytes) (h : List (Call H)) : Prop where
  arrives : arrived h <+: sent
  ends : ∀ past c future, h = past ++ c :: future → c.method.isEnd = true → arrived past = sent

theorem Conveys.whole {sent : Bytes} {h : List (Call H)} (hd : Conveys sent h) (hf : finished h = true) :
    arrived h = sent := by
  obtain ⟨c, hc, hend⟩ := List.any_eq_true.1 hf
  obtain ⟨past, future, rfl⟩ := List.append_of_mem hc
  refine hd.arrives.eq_of_length_le ?_
  rw [← hd.ends past c future rfl hend, arrived_append, List.length_append]
  exact Nat.le_add_right _ _

/-- Nothing arrives after the peer's end. -/
theorem Conveys.nothing {sent : Bytes} {past future : List (Call H)} {c : Call H}
    (hd : Conveys sent (past ++ c :: future)) (hend : c.method.isEnd = true) : arrived future = [] := by
  have hle := hd.arrives.length_le
  rw [← hd.ends past c future rfl hend, ← List.singleton_append, arrived_append, arrived_append] at hle
  simp only [List.length_append] at hle
  exact List.length_eq_zero_iff.1 (by omega)

/-- What the receiver has accepted and heard, once nothing waits for it, when all has arrived. -/
theorem Life.hears {h : List (Call H)} (hl : Life ops b me l₀ h l) (hr : Reads ops good plain)
    (hu : Unmoved ops good plain) (hf : Fruitful ops) (h₀ : Begins l₀ e₀) (hg : good e₀)
    (hn : 0 < l₀.config.options.rxChunkSize) (hm : ∀ c ∈ h, c.method.leaves = false)
    (hfree : ∀ c ∈ h, frees c.trace = false) {sent : Bytes} (hd : Conveys sent h) (hfin : finished h = true)
    (hp : l.phase = .established) (ho : (Reception.after {} (h.flatMap Call.happenings)).offer = none)
    (hrf : (Reception.after {} (h.flatMap Call.happenings)).refused = none) :
    (Reception.after {} (h.flatMap Call.happenings)).ended = true ∧
      (Reception.after {} (h.flatMap Call.happenings)).accepted = plain e₀ sent := by
  have hlistens : ∀ c ∈ h, c.method.listens = true := fun c hc => Method.listens_of_stays (hm c hc)
  have htracks := (hl.follows hr hu hf h₀ hg hn hlistens).2.1 hfree
  have hconcludes := hl.concludes (x := []) hr hu hf h₀ hg hn hm hfree fun past c future heq hend => by
    subst heq
    rw [hd.nothing hend, List.append_nil]
  have habreast := hl.abreast hf h₀ hm hfree
  have harrived := after_arrived h {}
  generalize Reception.after {} (h.flatMap Call.happenings) = r at *
  -- the layer knows of the end, and has nothing else to hand up
  have hclosed : l.rxState = .closed := by
    by_cases hclosed : l.rxState = .closed
    · exact hclosed
    · have hreads : l.Reading := ⟨hp, hclosed⟩
      unfold Abreast at habreast
      rw [ho] at habreast
      obtain ⟨s, hs, -⟩ := habreast.owes hreads
      have hopened := (hconcludes.known hfin).2 hp
      rcases habreast.drained hreads (hl.config_eq h₀.sound ▸ hn) rfl s hs with ⟨-, hrefused⟩ | ⟨-, -, hqueued⟩
      · rw [hrf] at hrefused
        cases hrefused
      · cases hx : l.rxState with
        | opened => exact absurd hx hopened
        | eofQueued => exact absurd hx hqueued
        | closed => rfl
  have hended := htracks.ended.2 hclosed
  refine ⟨hended, ?_⟩
  have hheard := hconcludes.heard hended (by rw [hp]; simp) (by rw [hp]; simp)
  rw [List.append_nil, harrived] at hheard
  rw [← hheard, hd.whole hfin]
  rfl

variable {out : H.Engine → Bytes} {carries : Bytes → Bytes → Prop} {notice : Bytes → Prop}
  {H' : Host} {ops' : EngineOps H'.Engine H'.Shared} {good' : H'.Engine → Prop} {plain' : H'.Engine → Bytes → Bytes}
  {b' me' : Handle} {f₀ : H'.Engine} {l₂ l₃ : Layer H'.Source H'.Engine}

/-- The call of a method, with all answers fixed beforehand. -/
def called (ops : EngineOps H.Engine H.Shared) (me : Handle) (answer : (r : Layer.Req H) → r.Ans) (m : Method)
    (l : Layer H.Source H.Engine) : Call H :=
  let r := Program.play (I := io H) answer (Secure.step ops me m l)
  ⟨l, m, r.2.1, r.1, r.2.2⟩

end Layers

/-! ## Toy engines -/

namespace Toy

variable {tag frag : Nat} {f : Engine} {y p : Bytes}

/-- A client that has shaken hands. -/
def shaken : Layer Profile Engine := left (exchange.take 1)

/-- The engine of a server, that has heard nothing yet. -/
def fresh : Engine := { profile := { isServer := true } }

/-- It has heard the client's first message, and then the last one. -/
def greeted : Engine := (handle fresh 0x16 (List.replicate 20 104)).1

@[inherit_doc greeted]
def met : Engine := (handle greeted 0x16 (List.replicate 12 102)).1

/-- A client that has shaken hands writes, and departs. -/
def leaving (answer : (r : Layer.Req host) → r.Ans) (data : Bytes) (m : Method) : Call host × Call host :=
  let w := called (Toy.ops (V := Unit)) me answer (.op (.write data .copy)) shaken
  (w, called (Toy.ops (V := Unit)) me answer m w.after)

end Toy

end Tls

end Conduit
