import Conduit.Proofs.Tls.Closing
import Conduit.Proofs.Tls.Inbound

/-!
# What can be read is handed up

Whenever there may be something new to read, a TLS layer runs its engine and hands up what that yields. So after each
call a delivery is out, or the last one was refused, or there is nothing to read.

* `mute`: an engine that opens nothing. `step_mute`: most methods do the same with it, so they leave what can be read.
* `deliver_ready`, `receive_ready`: the others leave nothing to read but what is out.
* `call_prompt`: **after each call nothing that can be read waits**, unless the receiver has refused it.
* `Life.follows`: so it is all through a life in which the read half stays open.
-/

namespace Conduit

open Layer Layer.Act Secure

/-- Whether a method makes a layer look for something to read. -/
def Method.looks : Method → Bool
  | .op (.lower (.connected (.ok _))) | .op (.lower (.recv _)) | .op (.lower .eof) | .op (.lower .poll) => true
  | .settled _ => true
  | _ => false

/-- Whether a method leaves the read half open. -/
def Method.listens : Method → Bool
  | .op (.shutdown .write) => true
  | m => !m.leaves

theorem Method.listens_cases {m : Method} (hm : m.listens = true) : m.leaves = false ∨ m = .op (.shutdown .write) := by
  unfold Method.listens at hm
  split at hm
  · exact .inr rfl
  · exact .inl (by simpa using hm)

namespace Tls

variable {H : Host} {ops : EngineOps H.Engine H.Shared} {good : H.Engine → Prop} {plain : H.Engine → Bytes → Bytes}
  {b me : Handle} {e₀ : H.Engine} {l₀ l l' : Layer H.Source H.Engine} {s s' : Session H.Engine} {d u : Trace H}
  {r : Reception} {failed : Bool}

/-! ## Engines that open nothing -/

/-- The same engine, but it neither shakes hands nor opens anything. -/
def mute (ops : EngineOps H.Engine H.Shared) : EngineOps H.Engine H.Shared where
  isHandshaking := ops.isHandshaking
  handshake e := .done (e, .error .closed)
  decrypt e _ := .done (e, .error .closed)
  encrypt := ops.encrypt
  flush := ops.flush
  wantsWrite := ops.wantsWrite
  buffered := ops.buffered
  closeNotify := ops.closeNotify
  info := ops.info

/-- Who does not look for something to read needs no engine that opens anything. -/
theorem step_mute {m : Method} (hm : m.looks = false) : Secure.step (mute ops) me m = Secure.step ops me m := by
  cases m with
  | op o =>
    cases o with
    | lower e =>
      cases e with
      | connected x => cases x <;> first | rfl | cases hm
      | recv | eof | poll => cases hm
      | _ => rfl
    | shutdown dir => cases dir <;> rfl
    | _ => rfl
  | settled v => cases hm
  | dealloc => rfl

theorem Works.of_done {V α : Type} {c c' : Bytes} {ps : List Push} {x a : α} (h : Works (V := V) (.done x) c ps c' a) :
    a = x := by
  cases h with
  | done => rfl

theorem Drives.of_mute {α : Type} {e : H.Engine} {f : Fault} {a : Except Fault α}
    (hd : Drives b s (.done (e, .error f)) a u s') : a = .error f := by
  obtain ⟨ps, hw, -⟩ := hd.works
  exact congrArg Prod.snd hw.of_done

theorem Opens.of_mute {a : Except Fault Decrypted} (ho : Opens (mute ops) b l s a u s') : a = .error .closed := by
  cases ho with
  | intro hp hr hs hf ha n hd => exact hd.of_mute

theorem Reads.mute (hr : Reads ops good plain) : Reads (mute ops) good plain where
  grows := hr.grows
  handshake _ hw := by cases hw
  data _ hw := by cases hw
  wouldBlock _ hw := by cases hw
  peerClosed _ hw := by cases hw
  flush hg hw := hr.flush hg hw
  encrypt hg := hr.encrypt hg

/-! ## What waits -/

/-- Nothing that can be read waits: a delivery is out, or there is nothing to read. -/
def Session.Served (plain : H.Engine → Bytes → Bytes) (s : Session H.Engine) : Prop :=
  s.inFlight.isSome ∨ s.rxApp.toList = [] ∧ plain s.engine s.rx.toList = []

/-- Nothing that can be read waits, as long as anything is read. -/
def Layer.Ready (plain : H.Engine → Bytes → Bytes) (l : Layer H.Source H.Engine) : Prop :=
  l.phase = .established → l.rxState ≠ .closed → ∀ s, l.session = some s → s.Served plain

/-- Nothing that can be read waits, or the receiver has refused it. -/
def Prompt (plain : H.Engine → Bytes → Bytes) (r : Reception) (l : Layer H.Source H.Engine) : Prop :=
  r.refused.isSome ∨ l.Ready plain

theorem Layer.Ready.of_phase (h : l.phase ≠ .established) : l.Ready plain := fun hp => absurd hp h

theorem Layer.Ready.of_closed (h : l.rxState = .closed) : l.Ready plain := fun _ hr => absurd h hr

theorem Layer.Ready.of_none (h : l.session = none) : l.Ready plain := by
  intro _ _ s hs
  rw [h] at hs
  cases hs

theorem Layer.Ready.ended : l.ended.Ready plain := .of_closed rfl

/-- The engine of a session that is read is good. -/
theorem Tracks.engine_good (ht : Tracks good plain e₀ r l) (hp : l.phase = .handshaking ∨ l.phase = .established)
    (hr : l.rxState ≠ .closed) (hs : l.session = some s) : good s.engine := by
  obtain ⟨s₁, hs₁, hfol⟩ := ht.live hp hr
  cases hs.symm.trans hs₁
  exact hfol.good

theorem Prompt.of_ready (h : Prompt plain r l) (hl : l.Ready plain → l'.Ready plain) : Prompt plain r l' := h.imp id hl

/-- Where nothing that can be read waits, the receiver has accepted the plaintext of all that arrived, unless it has been
told the end of the stream, or a delivery is out or was refused. -/
theorem Tracks.nothing_waits (ht : Tracks good plain e₀ r l) (h : Prompt plain r l) (hp : l.phase = .established) :
    r.ended = true ∨ r.offer.isSome ∨ r.refused.isSome ∨ r.accepted = plain e₀ r.arrived := by
  rcases h with href | hready
  · exact .inr (.inr (.inl href))
  · by_cases hrx : l.rxState = .closed
    · exact .inl (ht.ended.2 hrx)
    · obtain ⟨s, hs, hfol⟩ := ht.live (.inr hp) hrx
      rcases hready hp hrx s hs with hout | ⟨happ, hplain⟩
      · refine .inr (.inl ?_)
        rw [hfol.offer]
        simpa using hout
      · refine .inr (.inr (.inr ?_))
        rw [hfol.whole, happ, hplain]
        simp

/-- Sending takes nothing that can be read away, and adds nothing. -/
theorem Layer.Ready.sends {e : H.Engine} {rx : Segments} {n : Nat} {f c : Bool} (h : l.Ready plain)
    (hs : l.session = some s) (he : l.phase = .established → l.rxState ≠ .closed → plain e rx.toList = plain s.engine s.rx.toList) :
    (l.holding { s with engine := e, rx := rx, bytesRead := n, applDataSent := f, closeNotifySent := c }).Ready plain := by
  rintro hp hr s' ⟨⟩
  rcases h hp hr s hs with hout | ⟨happ, hplain⟩
  · exact .inl hout
  · exact .inr ⟨happ, (he hp hr).trans hplain⟩

theorem Move.prompt (h : Move (mute ops) b l d l') (hr : Reads ops good plain) (ht : Tracks good plain e₀ r l)
    (hp : Prompt plain r l) : Prompt plain (r.after (handed failed d)) l' := by
  cases h with
  | idle hx =>
    rw [hx.handed_eq]
    exact hp
  | connecting => exact hp
  | shaken _ _ hd => cases hd.of_mute
  | unshaken | unopened => exact .inr (.of_phase (by simp [Layer.broken]))
  | sealed data sent hs =>
    refine hp.of_ready fun h => h.sends hs fun hph hrx => ?_
    exact (hr.encrypt (ht.engine_good (.inr hph) hrx hs)).2 _
  | @flushed s s' _ _ hs hd =>
    rw [hd.handed_eq]
    refine hp.of_ready fun h => ?_
    cases hd with
    | intro hw =>
      refine h.sends hs fun hph hrx => ?_
      have hsame := (hr.flush (ht.engine_good (.inr hph) hrx hs) hw).2 []
      simpa using hsame.symm
  | offered =>
    refine .inr ?_
    rintro _ _ s' ⟨⟩
    exact .inl rfl
  | opened ho | stalled ho | drained ho | finished ho => cases ho.of_mute

theorem Moves.prompt (h : Moves (mute ops) b l d l') (hr : Reads ops good plain) (hf : l'.phase = .failed → failed = true)
    (ht : Tracks good plain e₀ r l) (hp : Prompt plain r l) : Prompt plain (r.after (handed failed d)) l' := by
  induction h generalizing r with
  | refl => exact hp
  | step h hs ih =>
    rw [handed_append, Reception.after_append]
    exact ih hf (h.tracks hr.mute (fun hph => hf (hs.stays_failed hph)) ht).2 (h.prompt hr ht hp)

theorem Enter.prompt {m : Method} (h : Enter b m l d l') (hm : m.looks = false) (hp : Prompt plain r l) :
    Prompt plain (r.after m.happenings) l' := by
  cases h with
  | quiet hq =>
    rw [happenings_of_isQuiet hq]
    exact hp
  | lost => exact .inr (.of_none rfl)
  | recved _ hs =>
    refine hp.of_ready fun h hph hrx => ?_
    rintro s' ⟨⟩
    exact (h hph hrx _ hs :)
  | unrecved => exact hp
  | _ => cases hm

theorem Turns.prompt {m : Method} {f : Bool} (h : Turns (mute ops) b m l d l') (hm : m.looks = false)
    (hr : Reads ops good plain) (hl : l.Sound) (hf : l'.phase = .failed → f = true) (ht : Tracks good plain e₀ r l)
    (hp : Prompt plain r l) : Prompt plain (r.after (m.happenings ++ handed f d)) l' := by
  rw [Reception.after_append]
  cases h with
  | moved he hmv =>
    obtain ⟨hnone, hs⟩ : handed f _ = [] ∧ _ := he.tracks hl ht
    rw [handed_append, hnone, List.nil_append]
    rcases hs with ⟨hsession, -⟩ | ht₁
    · exact .inr (.of_none (hmv.session_none hsession))
    · exact hmv.prompt hr hf ht₁ (he.prompt hm hp)
  | drawn hs =>
    -- there was no session, so nothing is read any more
    refine .inr fun hph hrx => ?_
    obtain ⟨s, hs', -⟩ := ht.live (.inr hph) hrx
    rw [hs] at hs'
    cases hs'
  | listened => exact .inr (.of_phase (by simp))

/-! ## Looking for something to read -/

/-- What enters without a request is not the end of the connection. -/
theorem Enter.tracks_of_nil {m : Method} (h : Enter b m l [] l') (hl : l.Sound) (ht : Tracks good plain e₀ r l) :
    Tracks good plain e₀ (r.after m.happenings) l' := by
  obtain ⟨-, hentered⟩ : handed true _ = [] ∧ _ := h.tracks hl ht
  rcases hentered with ⟨-, hfree⟩ | ht'
  · cases hfree
  · exact ht'

theorem offerHeld_ready (hs : s.Sound) (hne : s.rxApp.toList ≠ []) :
    Does b offerHeld (l.holding s) fun _ _ l' => l'.Ready plain := by
  unfold offerHeld
  simp only [does_bind, does_get, Layer.holding]
  split
  · rename_i he
    exact absurd (hs.rxApp.isEmpty_iff.1 he) hne
  · refine offer_does ?_
    rintro _ _ s' ⟨⟩
    exact .inl rfl

theorem openRecord_ready (hl : l.Sound) (hr : Reads ops good plain) (hy : Fruitful ops)
    (hn : 0 < l.config.options.rxChunkSize) (hrx : l.rxState ≠ .closed) (hs : l.session = some s)
    (hg : good s.engine) (hf : s.inFlight = none) (ha : s.rxApp.toList = []) :
    Does b (openRecord ops me s) l fun _ _ l' => l'.Ready plain := by
  unfold openRecord
  simp only [does_bind, does_get]
  refine drive_does (hl s hs).rx fun x u s₁ hd => ?_
  have hs₁ : s₁.Sound := hd.sound (hl s hs)
  obtain ⟨happ, -, -, hfl⟩ := hd.frame
  obtain ⟨ps, hw, -⟩ := hd.works
  simp only [does_setSession]
  cases x with
  | error f => exact failSession_does fun v hv => .of_phase (by simp [Layer.broken])
  | ok y =>
    cases y with
    | data text =>
      -- what was opened is handed up
      have hne : (s₁.opened text).rxApp.toList ≠ [] := by
        rw [Session.opened, Segments.toList_push]
        exact fun hnil => hy hn hw (List.append_eq_nil_iff.1 hnil).2
      have hopened : (s₁.opened text).Sound := hs₁.opened (hfl.trans hf)
      simp only [does_bind, does_setSession]
      split
      · rw [does_bind]
        exact ackOverhead_does fun v hv => offerHeld_ready hopened.recordDone hne
      · exact offerHeld_ready hopened hne
    | wouldBlock =>
      -- there is no whole record
      obtain ⟨-, hnone, hsame⟩ := hr.wouldBlock hg hw
      have hplain : plain s₁.engine s₁.rx.toList = [] := by simpa [hnone] using (hsame []).symm
      have hend : ∀ s', s'.rxApp = s₁.rxApp → s'.engine = s₁.engine → s'.rx = s₁.rx →
          Does b (do if (← get).rxState = .eofQueued then deliverEof me) (l.holding s') fun _ _ l' => l'.Ready plain := by
        intro s' h₁ h₂ h₃
        simp only [does_bind, does_get]
        split
        · exact deliverEof_does hrx .ended
        · rw [does_pure]
          rintro _ _ s₂ ⟨⟩
          exact .inr ⟨by rw [h₁, happ, ha], by rw [h₂, h₃, hplain]⟩
      dsimp only
      split
      · rw [does_bind]
        exact ackOverhead_does fun v hv => hend _ rfl rfl rfl
      · exact hend _ rfl rfl rfl
    | peerClosed =>
      simp only [does_bind, does_note]
      exact ackOverhead_does fun v hv => deliverEof_does hrx .ended

/-- Looking for something to read leaves nothing to read but what is out. -/
theorem deliver_ready (hl : l.Sound) (hr : Reads ops good plain) (hy : Fruitful ops)
    (hn : 0 < l.config.options.rxChunkSize) (ht : Tracks good plain e₀ r l) :
    Does b (deliver ops me) l fun _ _ l' => l'.Ready plain := by
  unfold deliver
  simp only [does_bind, does_get]
  split
  · rename_i hpr
    rw [does_pure]
    simp only [Bool.or_eq_true, decide_eq_true_eq] at hpr
    rcases hpr with hph | hrx
    · exact .of_phase hph
    · exact .of_closed hrx
  · rename_i hpr
    simp only [Bool.or_eq_true, decide_eq_true_eq, not_or, Decidable.not_not] at hpr
    obtain ⟨hph, hrx⟩ := hpr
    split
    · rename_i hs
      rw [does_pure]
      exact .of_none hs
    · rename_i s hs
      split
      · rename_i hout
        rw [does_pure]
        intro _ _ s' hs'
        cases hs.symm.trans hs'
        exact .inl hout
      · rename_i hf
        split
        · refine offer_does ?_
          rintro _ _ s' ⟨⟩
          exact .inl rfl
        · rename_i he
          have hf : s.inFlight = none := by simpa using hf
          have ha : s.rxApp.toList = [] := (hl s hs).rxApp.isEmpty_iff.1 (by simpa using he)
          exact openRecord_ready hl hr hy hn hrx hs (ht.engine_good (.inr hph) hrx hs) hf ha

theorem receive_ready (hl : l.Sound) (hr : Reads ops good plain) (hy : Fruitful ops)
    (hn : 0 < l.config.options.rxChunkSize) (ht : Tracks good plain e₀ r l) :
    Does b (receive ops me) l fun _ _ l' => l'.Ready plain := by
  unfold receive
  simp only [does_bind, does_get]
  split
  · rename_i hp
    have hshaking : l.Ready plain := .of_phase (by rw [hp]; simp)
    split
    · rw [does_pure]
      exact hshaking
    · rename_i s hs
      rw [does_bind]
      refine drive_does (hl s hs).rx fun x u s' hd => ?_
      simp only [does_bind, does_setSession]
      refine outputLower_does fun y => ackLower_does fun v hv => ?_
      cases x with
      | error f => exact failSession_does fun w hw => .of_phase (by simp [Layer.broken])
      | ok p =>
        cases p with
        | inProgress =>
          rw [does_pure]
          exact .of_phase (by simp [Layer.holding, hp])
        | done =>
          have hm := Move.shaken hp hs hd y hv
          have ht₁ := (hm.tracks hr (fun _ => rfl) ht).2
          simp only [does_bind]
          refine establish_does fun d₁ l₁ h₁ => ?_
          have ht₂ := (h₁.tracks hr (fun _ => rfl) ht₁).2
          exact deliver_ready (h₁.sound (hm.sound hl)) hr hy (by rw [h₁.config]; exact hn) ht₂
  · exact deliver_ready hl hr hy hn ht

theorem lowerData_ready {data : Bytes} (hl : l.Sound) (hr : Reads ops good plain) (hy : Fruitful ops)
    (hn : 0 < l.config.options.rxChunkSize) (ht : Tracks good plain e₀ r l) :
    Does b (lowerData ops me data) l fun _ _ l' => l'.Ready plain := by
  unfold lowerData dropData
  simp only [does_bind, does_get]
  split
  · rename_i s hs
    split
    · rename_i hrx
      have he : Enter b (.op (.lower (.recv data))) l [] (l.holding { s with rx := s.rx.push data }) := .arrived hs hrx
      simp only [does_bind, does_setSession]
      exact receive_ready (he.sound hl) hr hy hn (he.tracks_of_nil hl ht)
    · rename_i hrx
      simp only [does_bind, does_note]
      exact ackLower_does fun u hu => .of_closed (Decidable.not_not.1 hrx)
  · rename_i hs
    simp only [does_bind, does_note]
    exact ackLower_does fun u hu => .of_none hs

theorem lowerEof_ready (hl : l.Sound) (hr : Reads ops good plain) (hy : Fruitful ops)
    (hn : 0 < l.config.options.rxChunkSize) (ht : Tracks good plain e₀ r l) :
    Does b (lowerEof ops me) l fun _ d l' => l'.Ready plain ∨ d = [] ∧ l' = l := by
  unfold lowerEof
  simp only [does_bind, does_get]
  split
  · rename_i hp
    split
    · rw [does_pure]
      exact .inr ⟨rfl, rfl⟩
    · rename_i hrx
      have he : Enter b (.op (.lower .eof)) l [] { l with rxState := .eofQueued } :=
        .finished hp (Decidable.not_not.1 hrx)
      simp only [does_bind, does_modify, does_note]
      exact (deliver_ready (he.sound hl) hr hy hn (he.tracks_of_nil hl ht)).mono fun _ _ _ h => .inl h
  · simp only [does_bind, does_note, does_modify]
    refine dropLower_does fun u hu => ?_
    rw [does_fail]
    exact .inl (.of_none rfl)
  all_goals
    rw [does_pure]
    exact .inr ⟨rfl, rfl⟩

/-- What was refused stays so until something is handed up again. -/
theorem Prompt.settled (h : Prompt plain r l) (v : Outcome) :
    Prompt plain (r.after (Method.happenings (.settled v))) l := by
  refine h.imp (fun href => ?_) id
  cases v with
  | ok _ => exact href
  | error f =>
    show (r.offer <|> r.refused).isSome = true
    cases r.offer with
    | none => exact href
    | some x => rfl

/-- When a delivery is settled, the next is out, or the receiver has refused it. -/
theorem settle_prompt {v : Outcome} (hl : l.Sound) (hr : Reads ops good plain) (hy : Fruitful ops)
    (hn : 0 < l.config.options.rxChunkSize) (ht : Tracks good plain e₀ r l) (hp : Prompt plain r l) :
    Does b (settle ops me v) l fun _ d l' =>
      l'.Ready plain ∨ d = [] ∧ Prompt plain (r.after (Method.happenings (.settled v))) l' := by
  unfold settle
  simp only [does_bind, does_get]
  split
  · rename_i hs
    rw [does_pure]
    exact .inl (.of_none hs)
  · rename_i s hs
    split
    · rw [does_pure]
      exact .inr ⟨rfl, hp.settled v⟩
    · rename_i n hf
      cases v with
      | ok _ =>
        have he : Enter b (.settled (.ok ())) l [] _ := .taken hs hf
        simp only [does_bind, does_setSession]
        exact (deliver_ready (he.sound hl) hr hy hn (he.tracks_of_nil hl ht)).mono fun _ _ _ h => .inl h
      | error f =>
        simp only [does_bind, does_setSession, does_note]
        by_cases hlive : l.phase = .established ∧ l.rxState ≠ .closed
        · obtain ⟨s₁, hs₁, hfol⟩ := ht.live (.inr hlive.1) hlive.2
          cases hs.symm.trans hs₁
          refine .inr ⟨rfl, .inl ?_⟩
          show (r.offer <|> r.refused).isSome = true
          rw [hfol.offer, hf]
          rfl
        · exact .inl fun hph hrx => absurd ⟨hph, hrx⟩ hlive

/-- Methods that look for something to read leave nothing to read but what is out or was refused. -/
theorem look_prompt {m : Method} {f : Bool} (hm : m.looks = true) (hl : l.Sound) (hr : Reads ops good plain)
    (hy : Fruitful ops) (hn : 0 < l.config.options.rxChunkSize) (ht : Tracks good plain e₀ r l)
    (hp : Prompt plain r l) :
    Does (α := no_index m.Reply) b (Secure.step ops me m) l fun _ d l' =>
      Prompt plain (r.after (m.happenings ++ handed f d)) l' := by
  cases m with
  | op o =>
    cases o with
    | lower e =>
      cases e with
      | connected x =>
        cases x with
        | ok _ =>
          show Does b (Secure.lower ops me (.connected (.ok ()))) l _
          unfold Secure.lower
          simp only [does_bind, does_note, does_pure]
          exact (receive_ready hl hr hy hn ht).mono fun _ _ _ h => .inr h
        | error f => cases hm
      | recv data =>
        show Does b (Secure.lower ops me (.recv data)) l _
        unfold Secure.lower
        simp only [does_bind, does_pure]
        exact (lowerData_ready hl hr hy hn ht).mono fun _ _ _ h => .inr h
      | eof =>
        show Does b (Secure.lower ops me .eof) l _
        unfold Secure.lower
        simp only [does_bind, does_pure]
        refine (lowerEof_ready hl hr hy hn ht).mono fun _ _ _ h => ?_
        rcases h with h | ⟨rfl, rfl⟩
        · exact .inr h
        · exact hp
      | poll =>
        show Does b (Secure.lower ops me .poll) l _
        unfold Secure.lower
        simp only [does_bind, does_emit, does_pure]
        refine flushOn_does hl fun d₁ l₁ hm₁ => ?_
        have ht₁ := (hm₁.tracks hr (fun _ => rfl) ht).2
        exact (deliver_ready (hm₁.sound hl) hr hy (by rw [hm₁.config]; exact hn) ht₁).mono fun _ _ _ h => .inr h
      | _ => cases hm
    | _ => cases hm
  | settled v =>
    refine (settle_prompt hl hr hy hn ht hp).mono fun _ _ _ h => ?_
    rcases h with h | ⟨rfl, h⟩
    · exact .inr h
    · simpa using h
  | dealloc => cases hm

/-! ## The notice that no more will be sent -/

theorem Notifies.stays_failed (h : Notifies ops b l d l') (hl : l.phase = .failed) : l'.phase = .failed := by
  cases h with
  | already => exact hl
  | now hs hm => exact hm.stays_failed hl

/-- A layer whose session has queued the notice reads on. -/
theorem Tracks.notified (ht : Tracks good plain e₀ r l) (hu : Unmoved ops good plain) (hs : l.session = some s) :
    Tracks good plain e₀ r (l.holding (s.notified (ops.closeNotify s.engine))) := by
  refine ⟨ht.ended, ht.settled, ht.early, fun hp hrx => ?_⟩
  obtain ⟨s₁, hs₁, hfol⟩ := ht.live hp hrx
  cases hs.symm.trans hs₁
  obtain ⟨hg, hsame⟩ := hu hfol.good
  exact ⟨_, rfl, hfol.engine hg fun x => (hsame _).symm⟩

theorem Notifies.tracks (h : Notifies ops b l d l') (hr : Reads ops good plain) (hu : Unmoved ops good plain)
    (hf : l'.phase = .failed → failed = true) (ht : Tracks good plain e₀ r l) :
    r.Orderly (plain e₀) (handed failed d) ∧ Tracks good plain e₀ (r.after (handed failed d)) l' := by
  cases h with
  | already => exact ⟨trivial, ht⟩
  | now hs hm => exact hm.tracks hr hf (ht.notified hu hs)

theorem Notifies.prompt (h : Notifies (mute ops) b l d l') (hr : Reads ops good plain) (hu : Unmoved ops good plain)
    (hf : l'.phase = .failed → failed = true) (ht : Tracks good plain e₀ r l) (hp : Prompt plain r l) :
    Prompt plain (r.after (handed failed d)) l' := by
  cases h with
  | already => exact hp
  | now hs hm =>
    refine hm.prompt hr hf (ht.notified hu hs) (hp.of_ready fun h => h.sends hs fun hph hrx => ?_)
    exact (hu (ht.engine_good (.inr hph) hrx hs)).2 _

/-- A layer whose write half is closed reads on. -/
theorem Tracks.silenced (ht : Tracks good plain e₀ r l) : Tracks good plain e₀ r l.silenced := by
  refine ⟨ht.ended, ht.settled, ht.early, fun hp hrx => ?_⟩
  have hsame : l.silenced.session = l.session := if_neg hrx
  rw [hsame]
  exact ht.live hp hrx

theorem Layer.Ready.silenced (h : l.Ready plain) : l.silenced.Ready plain := by
  intro hp hrx s hs
  have hsame : l.silenced.session = l.session := if_neg hrx
  exact h hp hrx s (hsame ▸ hs)

/-- To close the write half is to send the notice, if anything is done at all, and then to be silent. -/
theorem Leaves.silences {x : Outcome} (h : Leaves ops b (.op (.shutdown .write)) x l d l') :
    d = [] ∧ l' = l ∨ ∃ u l₁ y, Notifies ops b l u l₁ ∧ d = u ++ [⟨.ask b (.shutdown .write), y⟩] ∧
      (l' = l₁ ∨ l' = l₁.silenced) := by
  cases h with
  | silent => exact .inl ⟨rfl, rfl⟩
  | silenced hn => exact .inr ⟨_, _, _, hn, rfl, .inr rfl⟩
  | unsilenced hn => exact .inr ⟨_, _, _, hn, rfl, .inl rfl⟩
  | closed ho | unclosed ho => rcases ho with h | h <;> cases h

theorem Leaves.tracks {x : Outcome} (h : Leaves ops b (.op (.shutdown .write)) x l d l') (hr : Reads ops good plain)
    (hu : Unmoved ops good plain) (hf : l'.phase = .failed → failed = true) (ht : Tracks good plain e₀ r l) :
    r.Orderly (plain e₀) (handed failed d) ∧ Tracks good plain e₀ (r.after (handed failed d)) l' := by
  obtain ⟨rfl, rfl⟩ | ⟨u, l₁, y, hn, rfl, hl⟩ := h.silences
  · exact ⟨trivial, ht⟩
  · have hasked : handed failed (u ++ [⟨.ask b (.shutdown .write), y⟩]) = handed failed u := by
      rw [handed_append]
      exact List.append_nil _
    rw [hasked]
    rcases hl with rfl | rfl
    · exact hn.tracks hr hu hf ht
    · obtain ⟨ho, ht'⟩ := hn.tracks hr hu hf ht
      exact ⟨ho, ht'.silenced⟩

theorem Leaves.prompt {x : Outcome} (h : Leaves (mute ops) b (.op (.shutdown .write)) x l d l')
    (hr : Reads ops good plain) (hu : Unmoved ops good plain) (hf : l'.phase = .failed → failed = true)
    (ht : Tracks good plain e₀ r l) (hp : Prompt plain r l) : Prompt plain (r.after (handed failed d)) l' := by
  obtain ⟨rfl, rfl⟩ | ⟨u, l₁, y, hn, rfl, hl⟩ := h.silences
  · exact hp
  · have hasked : handed failed (u ++ [⟨.ask b (.shutdown .write), y⟩]) = handed failed u := by
      rw [handed_append]
      exact List.append_nil _
    rw [hasked]
    rcases hl with rfl | rfl
    · exact hn.prompt hr hu hf ht hp
    · exact (hn.prompt hr hu hf ht hp).of_ready .silenced

/-! ## Calls and lives -/

/-- What a call hands up is allowed, and layer and receiver go on to agree. -/
theorem call_tracks {m : Method} {x : m.Reply} {t : Trace H} (hy : (Secure.step ops me m l).Yields t (x, l'))
    (hb : Over b t) (hm : m.listens = true) (hl : l.Sound) (hr : Reads ops good plain) (hu : Unmoved ops good plain)
    (ht : Tracks good plain e₀ r l) :
    r.Orderly (plain e₀) (⟨l, m, x, t, l'⟩ : Call H).happenings ∧
      (frees t = false → Tracks good plain e₀ (r.after (⟨l, m, x, t, l'⟩ : Call H).happenings) l') := by
  unfold Call.happenings
  rw [← handed_deeds, ← frees_deeds t]
  rcases Method.listens_cases hm with hm | rfl
  · exact (Call.turns hy hb hl hm).tracks hr hl (by simp) ht
  · have hfailed : l'.phase = .failed → decide (l'.phase = .failed) = true := decide_eq_true
    obtain ⟨ho, ht'⟩ := (Call.leaves hy hb hl rfl).tracks hr hu hfailed ht
    exact ⟨ho, fun _ => ht'⟩

/-- **After each call nothing that can be read waits**, unless the receiver has refused it. -/
theorem call_prompt {m : Method} {x : m.Reply} {t : Trace H} (hy : (Secure.step ops me m l).Yields t (x, l'))
    (hb : Over b t) (hm : m.listens = true) (hl : l.Sound) (hr : Reads ops good plain) (hu : Unmoved ops good plain)
    (hf : Fruitful ops) (hn : 0 < l.config.options.rxChunkSize) (ht : Tracks good plain e₀ r l) (hp : Prompt plain r l) :
    Prompt plain (r.after (⟨l, m, x, t, l'⟩ : Call H).happenings) l' := by
  unfold Call.happenings
  rw [← handed_deeds]
  by_cases hlook : m.looks = true
  · exact look_prompt hlook hl hr hf hn ht hp t x l' hy hb
  · -- what does not look would do the same with an engine that opens nothing, so nothing new can be read
    have hlook : m.looks = false := by simpa using hlook
    rw [← step_mute hlook] at hy
    rcases Method.listens_cases hm with hm | rfl
    · exact (Call.turns hy hb hl hm).prompt hlook hr hl (by simp) ht hp
    · exact (Call.leaves hy hb hl rfl).prompt hr hu decide_eq_true ht hp

theorem Begins.sound (h : Begins l e₀) : l.Sound := by
  intro s hs
  rw [h.session] at hs
  cases hs
  exact .ofEngine _

/-- So it is all through a life in which the read half stays open: what happens is allowed, and nothing that can be read
waits unless the receiver has refused it. -/
theorem Life.follows {h : List (Call H)} (hl : Life ops b me l₀ h l) (hr : Reads ops good plain)
    (hu : Unmoved ops good plain) (hf : Fruitful ops) (h₀ : Begins l₀ e₀) (hg : good e₀)
    (hn : 0 < l₀.config.options.rxChunkSize) (hm : ∀ c ∈ h, c.method.listens = true) :
    Reception.Orderly (plain e₀) {} (h.flatMap Call.happenings) ∧
      ((∀ c ∈ h, frees c.trace = false) → Tracks good plain e₀ (Reception.after {} (h.flatMap Call.happenings)) l) ∧
      Prompt plain (Reception.after {} (h.flatMap Call.happenings)) l := by
  suffices hall : l.config = l₀.config ∧ _ from hall.2
  induction hl with
  | start => exact ⟨rfl, trivial, fun _ => h₀.tracks hg, .inr (.of_phase (by rw [h₀.phase]; simp))⟩
  | @call h l l' m x t hl hfree hy hb ih =>
    obtain ⟨hconfig, ho, ht, hp⟩ := ih fun c hc => hm c (by simp [hc])
    have hs := hl.sound h₀.sound
    have hlistens : m.listens = true := hm ⟨l, m, x, t, l'⟩ (by simp)
    obtain ⟨ho', ht'⟩ := call_tracks hy hb hlistens hs hr hu (ht hfree)
    have hp' := call_prompt hy hb hlistens hs hr hu hf (by rw [hconfig]; exact hn) (ht hfree) hp
    rw [List.flatMap_append, List.flatMap_singleton, Reception.orderly_append, Reception.after_append]
    refine ⟨(Call.config hy hb hs).trans hconfig, ⟨ho, ho'⟩, fun hfree' => ?_, hp'⟩
    exact ht' (hfree' ⟨l, m, x, t, l'⟩ (by simp))

end Tls

end Conduit
