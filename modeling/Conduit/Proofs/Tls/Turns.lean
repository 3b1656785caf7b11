import Conduit.Proofs.Tls.Moves

/-!
# Turns of a TLS layer

The methods of a TLS layer, one lemma each: what it does is made of the moves of `Move`.

* `deliver_does`, `receive_does`, `flush_does`, `write_does`: the parts that several methods share.
* `step_does`: **a method that does not end the connection enters, and then moves.**
-/

namespace Conduit

open Layer Layer.Act Secure

namespace Tls

variable {H : Host} {b : Handle} {ops : EngineOps H.Engine H.Shared} {me : Handle}

variable {l l' l₁ : Layer H.Source H.Engine} {s : Session H.Engine} {d d' : Trace H}

theorem Idle.output (x : Outcome) : @Idle H b ⟨.ask b .output, x⟩ :=
  @Idle.ask H b .output rfl x

theorem Drives.sound {α : Type} {p : EngineAct H.Shared (H.Engine × α)} {a : α} {s' : Session H.Engine}
    (h : Drives b s p a d s') (hs : s.Sound) : s'.Sound := by
  cases h with
  | intro hw hrx hu => exact hs.worked hrx

theorem Completes.sound {n : Nat} {s' : Session H.Engine} (h : Completes b s n d s') (hs : s.Sound) : s'.Sound := by
  cases h with
  | partly => exact hs
  | fully => exact hs.recordDone

theorem Opens.sound {r : Except Fault Decrypted} {s' : Session H.Engine} (h : Opens ops b l s r d s') (hl : l.Sound) :
    s'.Sound := by
  cases h with
  | intro hp hr hs hf ha n hd => exact hd.sound (hl s hs)

theorem Opens.inFlight {r : Except Fault Decrypted} {s' : Session H.Engine} (h : Opens ops b l s r d s') :
    s'.inFlight = none := by
  cases h with
  | intro hp hr hs hf ha n hd =>
    cases hd with
    | intro => exact hf

theorem Move.sound (h : Move ops b l d l') (hl : l.Sound) : l'.Sound := by
  cases h with
  | idle | connecting => exact hl
  | unshaken | unopened => exact .of_none rfl
  | shaken hp hs hd =>
    rintro s ⟨⟩
    have := hd.sound (hl _ hs)
    exact ⟨this.rx, this.rxApp, this.inFlight⟩
  | sealed data sent hs => exact .holding ⟨(hl _ hs).rx, (hl _ hs).rxApp, (hl _ hs).inFlight⟩
  | flushed hs hd => exact .holding (hd.sound (hl _ hs))
  | offered hp hr hs => exact .holding (hl _ hs).offered
  | opened ho hv => exact .holding (hv.sound ((ho.sound hl).opened ho.inFlight))
  | stalled ho hr hv => exact .holding (hv.sound (ho.sound hl))
  | drained ho hr hv => exact (Layer.Sound.holding (hv.sound (ho.sound hl))).ended
  | finished ho hv => exact (Layer.Sound.holding (ho.sound hl).recordDone).ended

theorem Moves.sound (h : Moves ops b l d l') (hl : l.Sound) : l'.Sound := by
  induction h with
  | refl => exact hl
  | step h _ ih => exact ih (h.sound hl)

/-- No move closes the write half. -/
theorem Move.txClosed (h : Move ops b l d l') : l'.txClosed = l.txClosed := by
  cases h <;> rfl

theorem Moves.txClosed (h : Moves ops b l d l') : l'.txClosed = l.txClosed := by
  induction h with
  | refl => rfl
  | step h _ ih => exact ih.trans h.txClosed

theorem Move.config (h : Move ops b l d l') : l'.config = l.config := by
  cases h <;> rfl

theorem Moves.config (h : Moves ops b l d l') : l'.config = l.config := by
  induction h with
  | refl => rfl
  | step h _ ih => exact ih.trans h.config

theorem Enter.config {m : Method} (h : Enter b m l d l') : l'.config = l.config := by
  cases h <;> rfl

/-- A layer is configured once. -/
theorem Turns.config {m : Method} (h : Turns ops b m l d l') : l'.config = l.config := by
  cases h with
  | moved he hm => exact hm.config.trans he.config
  | drawn | listened => rfl

theorem Enter.sound {m : Method} (h : Enter b m l d l') (hl : l.Sound) : l'.Sound := by
  cases h with
  | quiet | dropped | finished | unfinished | unasked | unrecved => exact hl
  | arrived hs => exact .holding ⟨(hl _ hs).rx.push, (hl _ hs).rxApp, (hl _ hs).inFlight⟩
  | cut | lost => exact .of_none rfl
  | taken hs => exact .holding ⟨(hl _ hs).rx, (hl _ hs).rxApp.advance, fun _ hn => by cases hn⟩
  | refused hs => exact .holding ⟨(hl _ hs).rx, (hl _ hs).rxApp, fun _ hn => by cases hn⟩
  | recved hp hs => exact .holding ⟨(hl _ hs).rx, (hl _ hs).rxApp, (hl _ hs).inFlight⟩

theorem Turns.sound {m : Method} (h : Turns ops b m l d l') (hl : l.Sound) : l'.Sound := by
  cases h with
  | moved he hm => exact hm.sound (he.sound hl)
  | drawn =>
    rintro s ⟨⟩
    exact .ofEngine _
  | listened => exact .of_none rfl

theorem Move.moves (h : Move ops b l d l') : Moves ops b l d l' := by
  simpa using Moves.step h (.refl l')

theorem Moves.trans (h : Moves ops b l d l₁) (h' : Moves ops b l₁ d' l') : Moves ops b l (d ++ d') l' := by
  induction h with
  | refl => exact h'
  | step h _ ih => rw [List.append_assoc]; exact .step h (ih h')

/-- A request of no consequence. -/
theorem Moves.idle {x : Exchange (io H)} (hx : Idle b x) : Moves ops b l [x] l := (Move.idle hx).moves

theorem Moves.idles (h : ∀ x ∈ d, Idle b x) : Moves ops b l d l := by
  induction d with
  | nil => exact .refl l
  | cons x d ih => exact .step (.idle (h x (by simp))) (ih fun y hy => h y (by simp [hy]))

/-! ## Shared parts -/

section Parts

variable {post : Unit → Trace H → Layer H.Source H.Engine → Prop}

@[simp] theorem does_setSession (s : Session H.Engine) : Does b (setSession s) l post ↔ post () [] (l.holding s) :=
  does_modify _

theorem ackLower_does {n : Nat} (h : ∀ u, Acks b n u → post () u l) : Does b (ackLower n) l post := by
  unfold ackLower
  split
  · rename_i h0
    rw [does_pure]
    exact h _ (h0 ▸ .none)
  · rename_i h0
    simp only [does_bind, does_inner, does_ask, List.nil_append]
    intro x
    exact h _ (.some h0)

theorem outputLower_does (h : ∀ x, post () [⟨.ask b .output, x⟩] l) : Does b (outputLower me) l post := by
  unfold outputLower
  simp only [does_bind, does_inner, does_ask]
  intro x
  cases x with
  | ok _ => simpa using h (.ok ())
  | error f => simpa using h (.error f)

theorem dropLower_does (h : ∀ u, Drops b u → post () u l) : Does b dropLower l post := by
  unfold dropLower
  simp only [does_bind, does_inner, does_ask]
  intro x
  cases x with
  | ok _ => simpa using h _ .closed
  | error f => simpa using fun _ => h _ (.aborted f)

theorem ackOverhead_does (h : ∀ u, Acks b (s.bytesRead - s.bytesAppl) u → post () u (l.holding s.recordDone)) :
    Does b (ackOverhead me s) l post := by
  unfold ackOverhead
  have hack : Does b (do
      setSession { s with bytesRead := 0, bytesAppl := 0 }
      if 0 < s.bytesRead - s.bytesAppl then
        note (.trace "record overhead acknowledged"
          [me.field, ("overhead", toString (s.bytesRead - s.bytesAppl))])
        ackLower (s.bytesRead - s.bytesAppl)) l post := by
    simp only [does_bind, does_setSession]
    split
    · simp only [does_bind, does_note, List.nil_append]
      exact ackLower_does h
    · rename_i h0
      rw [does_pure]
      exact h [] (by rw [show s.bytesRead - s.bytesAppl = 0 by omega]; exact .none)
  split
  · simp only [does_bind, does_note] at hack ⊢
    simpa using hack
  · simpa using hack

theorem offer_does (h : post () [⟨.emit (.recv s.rxApp.toList), ()⟩] (l.holding s.offered)) :
    Does b (offer s) l post := by
  unfold offer
  simp only [does_bind, does_setSession, does_emit]
  exact h

theorem deliverEof_does (hr : l.rxState ≠ .closed) (h : post () [⟨.emit .eof, ()⟩] l.ended) :
    Does b (deliverEof me) l post := by
  unfold deliverEof afterRxClosed
  simp only [does_bind, does_get, hr, if_false, does_modify, does_note, does_emit]
  split
  · rename_i h0
    simp only [Bool.and_eq_true] at h0
    simp only [does_bind, does_modify, does_note]
    simpa [Layer.ended, h0.1] using h
  · rename_i h0
    rw [does_pure]
    have hl : l.ended = { l with rxState := .closed } := by
      unfold Layer.ended
      split
      · rename_i ht
        have : l.session = none := by simpa [ht] using h0
        rw [this]
      · rfl
    simpa [hl] using h

theorem failSession_does {f : Fault} (h : ∀ u, Breaks b l.rxState u → post () u l.broken) :
    Does b (failSession me f) l post := by
  unfold failSession
  simp only [does_bind, does_note, does_modify, does_get]
  split
  · rename_i hr
    simp only [does_bind, does_modify, does_emit]
    exact dropLower_does fun u hu => h _ (.told hr hu)
  · rename_i hr
    have hr : l.rxState = .closed := Decidable.not_not.1 hr
    have hl : l.broken = { l with phase := .failed, connecting := false, session := none } := by
      simp only [Layer.broken, ← hr]
    exact dropLower_does fun u hu => hl ▸ h u (hr ▸ .known hu)

theorem flush_does (hl : l.Sound) {post : Except Fault Bool → Trace H → Layer H.Source H.Engine → Prop}
    (h₀ : l.session = none → post (.ok true) [] l)
    (h : ∀ s s' r u, l.session = some s → Drives b s (ops.flush s.engine) r u s' → ∀ v,
      (∀ f, r = .error f → v = []) → (∀ c, r = .ok c → ∃ x, v = [⟨.ask b .output, x⟩]) →
      post r (u ++ v) (l.holding s')) :
    Does b (flush ops me) l post := by
  unfold flush
  simp only [does_bind, does_get]
  split
  · rename_i hs
    simpa using h₀ hs
  · rename_i s hs
    simp only [does_bind]
    refine drive_does (hl s hs).rx fun r u s' hd => ?_
    simp only [does_setSession]
    have hr := h s s' r u hs hd
    cases r with
    | error f => simpa using hr [] (fun _ _ => rfl) (fun c hc => by cases hc)
    | ok c =>
      simp only [does_bind]
      refine outputLower_does fun x => ?_
      simpa using hr _ (fun f hf => by cases hf) (fun _ _ => ⟨x, rfl⟩)

/-- Flushing is a move. -/
theorem flush_moves (hl : l.Sound) {post : Except Fault Bool → Trace H → Layer H.Source H.Engine → Prop}
    (h : ∀ r d l', Moves ops b l d l' → post r d l') : Does b (flush ops me) l post := by
  refine flush_does hl (fun _ => h _ _ _ (.refl l)) fun s s' r u hs hd v hv₁ hv₂ => h _ _ _ ?_
  refine (Move.flushed hs hd).moves.trans ?_
  cases r with
  | error f =>
    rw [hv₁ f rfl]
    exact .refl _
  | ok c =>
    obtain ⟨x, rfl⟩ := hv₂ c rfl
    exact .idle (.output x)

theorem offerHeld_does (hs : s.Sound) (hp : l.phase = .established) (hr : l.rxState ≠ .closed) (hf : s.inFlight = none)
    (h : ∀ d l', Moves ops b (l.holding s) d l' → post () d l') : Does b offerHeld (l.holding s) post := by
  unfold offerHeld
  simp only [does_bind, does_get, Layer.holding]
  split
  · rw [does_pure]
    exact h _ _ (.refl _)
  · rename_i he
    have hne : s.rxApp.toList ≠ [] := fun hn => he (hs.rxApp.isEmpty_iff.2 hn)
    exact offer_does (h _ _ (Move.offered (l := l.holding s) hp hr rfl hf hne).moves)

theorem openRecord_does (hl : l.Sound) (hp : l.phase = .established) (hr : l.rxState ≠ .closed)
    (hs : l.session = some s) (hf : s.inFlight = none) (ha : s.rxApp.toList = [])
    (h : ∀ d l', Moves ops b l d l' → post () d l') : Does b (openRecord ops me s) l post := by
  unfold openRecord
  simp only [does_bind, does_get]
  refine drive_does (hl s hs).rx fun r u s₁ hd => ?_
  have ho : Opens ops b l s r u s₁ := .intro hp hr hs hf ha _ hd rfl
  simp only [does_setSession, List.nil_append]
  cases r with
  | ok x =>
    cases x with
    | data text =>
      -- what is offered at the end is what was just opened
      have hoffer : ∀ s' v, Completes b (s₁.opened text) (ops.buffered s₁.engine) v s' →
          Does b offerHeld (l.holding s') fun _ d l' => post () (u ++ (v ++ d)) l' := by
        intro s' v hv
        have hm := Move.opened ho hv
        have hf' : s'.inFlight = none := by
          cases hv with
          | partly | fully => exact ho.inFlight
        refine offerHeld_does (hv.sound ((ho.sound hl).opened ho.inFlight)) hp hr hf' fun d l' (h₁ : Moves ops b _ _ _) => ?_
        have := h _ _ (hm.moves.trans h₁)
        rwa [List.append_assoc] at this
      simp only [does_bind, does_setSession, List.nil_append]
      split
      · rename_i h0
        rw [does_bind]
        refine ackOverhead_does fun v hv => ?_
        exact hoffer _ v (.fully h0 hv)
      · rename_i h0
        exact hoffer _ [] (.partly h0)
    | wouldBlock =>
      have hend : ∀ s' v, Completes b s₁ (ops.buffered s₁.engine) v s' →
          Does b (do if (← get).rxState = .eofQueued then deliverEof me) (l.holding s') fun _ d l' =>
            post () (u ++ (v ++ d)) l' := by
        intro s' v hv
        simp only [does_bind, does_get]
        split
        · rename_i hq
          have := h _ _ (Move.drained ho hq hv).moves
          exact deliverEof_does hr (by simpa using this)
        · rename_i hq
          rw [does_pure]
          simpa using h _ _ (Move.stalled ho hq hv).moves
      dsimp only
      split
      · rename_i h0
        rw [does_bind]
        exact ackOverhead_does fun v hv => hend _ v (.fully h0 hv)
      · rename_i h0
        exact hend _ [] (.partly h0)
    | peerClosed =>
      simp only [does_bind, does_note]
      refine ackOverhead_does fun v hv => deliverEof_does hr ?_
      have := h _ _ (Move.finished ho hv).moves
      rw [List.append_assoc] at this
      exact this
  | error f =>
    exact failSession_does fun v hv => h _ _ (Move.unopened ho hv).moves

theorem deliver_does (hl : l.Sound) (h : ∀ d l', Moves ops b l d l' → post () d l') :
    Does b (deliver ops me) l post := by
  unfold deliver
  simp only [does_bind, does_get]
  have h₀ := h _ _ (.refl l)
  split
  · simpa using h₀
  · rename_i hpr
    simp only [Bool.or_eq_true, decide_eq_true_eq, not_or, Decidable.not_not] at hpr
    obtain ⟨hp, hr⟩ := hpr
    split
    · simpa using h₀
    · rename_i s hs
      split
      · simpa using h₀
      · rename_i hf
        have hf : s.inFlight = none := by simpa using hf
        split
        · rename_i he
          have hne : s.rxApp.toList ≠ [] := fun hn => by simp [(hl s hs).rxApp.isEmpty_iff.2 hn] at he
          exact offer_does (h _ _ (Move.offered hp hr hs hf hne).moves)
        · rename_i he
          have ha : s.rxApp.toList = [] := (hl s hs).rxApp.isEmpty_iff.1 (by simpa using he)
          exact openRecord_does hl hp hr hs hf ha h

theorem establish_does (h : ∀ d l', Moves ops b { l with phase := .established } d l' → post () d l') :
    Does b (establish ops me) l post := by
  unfold establish
  simp only [does_bind, does_modify, does_get, does_note]
  split
  · simp only [does_bind, does_modify, does_emit]
    exact h _ _ ((Move.connecting false).moves.trans (.idle (.emit (fun d hd => by cases hd) (fun he => by cases he))))
  · simpa using h _ _ (.refl _)

theorem receive_does (hl : l.Sound) (h : ∀ d l', Moves ops b l d l' → post () d l') :
    Does b (receive ops me) l post := by
  unfold receive
  simp only [does_bind, does_get]
  split
  · rename_i hp
    split
    · simpa using h _ _ (.refl l)
    · rename_i s hs
      rw [does_bind]
      refine drive_does (hl s hs).rx fun r u s' hd => ?_
      simp only [does_bind, does_setSession]
      refine outputLower_does fun x => ackLower_does fun v hv => ?_
      cases r with
      | error f =>
        refine failSession_does fun w hw => ?_
        have := h _ _ (Move.unshaken hp hs hd x hv hw).moves
        simpa [Layer.holding, Layer.broken] using this
      | ok p =>
        cases p with
        | inProgress =>
          rw [does_pure]
          have := h _ _ (Move.shaken hp hs hd x hv).moves
          simpa [Layer.holding, Progress.phase, hp] using this
        | done =>
          have hm := Move.shaken hp hs hd x hv
          simp only [does_bind]
          refine establish_does fun d₁ l₁ h₁ => deliver_does (h₁.sound (hm.sound hl)) fun d₂ l₂ h₂ => ?_
          simpa using h _ _ ((hm.moves.trans h₁).trans h₂)
  · exact deliver_does hl h

theorem lowerEof_does (hl : l.Sound) (h : ∀ d l', Turns ops b (.op (.lower .eof)) l d l' → post () d l') :
    Does b (lowerEof ops me) l post := by
  unfold lowerEof
  have hturn : ∀ d₁ l₁, Enter b (.op (.lower .eof)) l d₁ l₁ → ∀ d₂ l', Moves ops b l₁ d₂ l' → post () (d₁ ++ d₂) l' :=
    fun d₁ l₁ h₁ d₂ l' h₂ => h _ _ (.moved h₁ h₂)
  simp only [does_bind, does_get]
  split
  · rename_i hp
    split
    · rename_i hr
      rw [does_pure]
      exact hturn _ _ (.unfinished (by rw [hp]; simp) fun _ => hr) _ _ (.refl l)
    · rename_i hr
      have hr : l.rxState = .opened := Decidable.not_not.1 hr
      simp only [does_bind, does_modify, does_note]
      exact deliver_does hl fun d₂ l' h₂ => hturn _ _ (.finished hp hr) _ _ h₂
  · rename_i hp
    simp only [does_bind, does_note, does_modify]
    refine dropLower_does fun u hu => ?_
    simp only [does_fail]
    simpa using hturn _ _ (.cut hp hu) _ _ (.refl _)
  all_goals
    rename_i hp
    rw [does_pure]
    exact hturn _ _ (.unfinished (by rw [hp]; simp) fun hp' => by rw [hp] at hp'; cases hp') _ _ (.refl l)

theorem lowerData_does (hl : l.Sound) {data : Bytes}
    (h : ∀ d l', Turns ops b (.op (.lower (.recv data))) l d l' → post () d l') :
    Does b (lowerData ops me data) l post := by
  unfold lowerData
  have hdrop : l.session = none ∨ l.rxState = .closed → Does b (dropData me data.length) l post := by
    intro hn
    unfold dropData
    simp only [does_bind, does_note]
    refine ackLower_does fun u hu => ?_
    simpa using h _ _ (.moved (.dropped hn hu) (.refl l))
  simp only [does_bind, does_get]
  split
  · rename_i s hs
    split
    · rename_i hr
      have he : Enter b (.op (.lower (.recv data))) l [] _ := .arrived hs hr
      simp only [does_bind, does_setSession]
      exact receive_does (he.sound hl) fun d₂ l' h₂ => h _ _ (.moved he h₂)
    · rename_i hr
      exact hdrop (.inr (Decidable.not_not.1 hr))
  · rename_i hs
    exact hdrop (.inl hs)

theorem flushOn_does (hl : l.Sound) {what : String} (h : ∀ d l', Moves ops b l d l' → post () d l') :
    Does b (flushOn ops me what) l post := by
  unfold flushOn
  simp only [does_bind]
  refine flush_moves hl fun r d l' hm => ?_
  cases r with
  | ok _ => simpa using h _ _ hm
  | error f => simpa using h _ _ hm

end Parts

/-! ## Methods -/

theorem settle_does (hl : l.Sound) {v : Outcome} {post : Unit → Trace H → Layer H.Source H.Engine → Prop}
    (h : ∀ d l', Turns ops b (.settled v) l d l' → post () d l') : Does b (settle ops me v) l post := by
  unfold settle
  have hnone : (∀ s, l.session = some s → s.inFlight = none) → post () [] l := fun hn =>
    h _ _ (.moved (.unasked hn) (.refl l))
  simp only [does_bind, does_get]
  split
  · rename_i hs
    rw [does_pure]
    exact hnone fun s hs' => by rw [hs] at hs'; cases hs'
  · rename_i s hs
    split
    · rename_i hf
      rw [does_pure]
      exact hnone fun s' hs' => by rw [hs] at hs'; cases hs'; exact hf
    · rename_i n hf
      cases v with
      | ok _ =>
        have he : Enter b (.settled (.ok ())) l [] _ := .taken hs hf
        simp only [does_bind, does_setSession]
        exact deliver_does (he.sound hl) fun d l' hm => h _ _ (.moved he hm)
      | error f =>
        simp only [does_bind, does_setSession, does_note]
        exact h _ _ (.moved (.refused hs hf) (.refl _))

theorem recved_does {n : Nat} {post : Unit → Trace H → Layer H.Source H.Engine → Prop}
    (h : ∀ d l', Turns ops b (.op (.recved n)) l d l' → post () d l') : Does b (recved me n) l post := by
  unfold recved
  simp only [does_bind, does_get]
  split
  · rename_i s hp hs
    have hack : Does b (do
        setSession { s with passedUnrecved := s.passedUnrecved - min n s.passedUnrecved }
        ackLower (min n s.passedUnrecved)) l post := by
      simp only [does_bind, does_setSession]
      refine ackLower_does fun u hu => ?_
      simpa using h _ _ (.moved (.recved hp hs hu) (.refl _))
    split
    · simp only [does_bind, does_note] at hack ⊢
      exact hack
    · exact hack
  · rename_i hn
    rw [does_pure]
    refine h _ _ (.moved (.unrecved fun hp => ?_) (.refl l))
    cases hs : l.session with
    | none => rfl
    | some s => exact (hn s hp hs).elim

/-- A quiet method only moves. -/
theorem Moves.turns {m : Method} (hm : m.isQuiet) (h : Moves ops b l d l') : Turns ops b m l d l' :=
  .moved (.quiet hm) h

/-- Making a layer for an accepted connection leaves the listening one as it is. -/
theorem create_does {config : Config H.Source} {name : Option String}
    {post : Except Fault (Layer H.Source H.Engine) → Trace H → Layer H.Source H.Engine → Prop}
    (h : ∀ x d, (∀ y ∈ d, Idle b y) → post x d l) : Does b (Layer.create newEngine config name) l post := by
  unfold Layer.create
  have hnew : ∀ (n : Option ServerName) (g : H.Engine → Layer H.Source H.Engine),
      Does b (do pure ((← newEngine config n).map g)) l post := by
    intro n g
    simp only [does_bind, does_newEngine, does_pure]
    exact fun x => h _ _ (by simpa using .newEngine config n x)
  dsimp only
  split
  · exact hnew _ _
  · split
    · rw [does_pure]
      exact h _ _ (by simp)
    · split
      · rw [does_pure]
        exact h _ _ (by simp)
      · exact hnew _ _

theorem accept_does {new : Handle} {post : Outcome → Trace H → Layer H.Source H.Engine → Prop}
    (h : ∀ r d, Moves ops b l d l → post r d l) : Does b (Secure.accept me new) l post := by
  unfold Secure.accept
  simp only [does_bind, does_get]
  refine create_does fun x d hd => ?_
  have hd : Moves ops b l d l := .idles hd
  cases x with
  | error f => simpa using h _ _ hd
  | ok layer =>
    simp only [does_bind, does_cover]
    intro y
    have hc := hd.trans (.idle (.cover new layer y))
    cases y with
    | error f => simpa using h _ _ hc
    | ok conn =>
      simp only [does_bind, does_note, does_emit, does_pure]
      have := hc.trans (.idle (@Idle.emit H b (.accept conn) (fun d hd => by cases hd) (fun he => by cases he)))
      simpa using h _ _ this

theorem lower_does (hl : l.Sound) {e : Event} {post : Outcome → Trace H → Layer H.Source H.Engine → Prop}
    (h : ∀ r d l', Turns ops b (.op (.lower e)) l d l' → post r d l') : Does b (Secure.lower ops me e) l post := by
  unfold Secure.lower
  cases e with
  | accept new =>
    simp only [does_bind, does_get]
    split
    · rw [does_pure]
      exact h _ _ _ (Moves.turns rfl (.refl l))
    · exact accept_does fun r d hm => h _ _ _ (hm.turns rfl)
  | connected r =>
    cases r with
    | ok _ =>
      simp only [does_bind, does_note, does_pure]
      exact receive_does hl fun d l' hm => by simpa using h _ _ _ (hm.turns rfl)
    | error f =>
      simp only [does_bind, does_modify, does_emit, does_pure]
      exact h _ _ _ (Moves.turns rfl ((Move.connecting false).moves.trans
        (.idle (.emit (fun d hd => by cases hd) (fun he => by cases he)))))
  | recv data =>
    simp only [does_bind, does_pure]
    exact lowerData_does hl fun d l' ht => by simpa using h _ _ _ ht
  | eof =>
    simp only [does_bind, does_pure]
    exact lowerEof_does hl fun d l' ht => by simpa using h _ _ _ ht
  | sent len =>
    simp only [does_bind, does_note]
    refine flushOn_does hl fun d l' hm => ?_
    simp only [does_get]
    split
    · simp only [does_bind, does_emit, does_pure]
      have := hm.trans (.idle (@Idle.emit H b (.sent 0) (fun d hd => by cases hd) (fun he => by cases he)))
      simpa using h _ _ _ (this.turns rfl)
    · simpa using h _ _ _ (hm.turns rfl)
  | poll =>
    simp only [does_bind, does_emit, does_pure]
    refine flushOn_does hl fun d l' hm => deliver_does (hm.sound hl) fun d₂ l₂ hm₂ => ?_
    have := (hm.trans hm₂).trans (.idle (@Idle.emit H b .poll (fun d hd => by cases hd) (fun he => by cases he)))
    simpa using h _ _ _ (this.turns rfl)
  | error f =>
    simp only [does_bind, does_note, does_modify, does_fail, does_pure]
    have ht : Turns ops b (.op (.lower (.error f))) l ([⟨.fail f, ()⟩] ++ []) { l with session := none } :=
      .moved .lost (.refl _)
    exact h _ _ _ ht

theorem connect_does {addr : Endpoint} {post : Outcome → Trace H → Layer H.Source H.Engine → Prop}
    (h : ∀ r d l', Turns ops b (.op (.connect addr)) l d l' → post r d l') : Does b (Secure.connect addr) l post := by
  unfold Secure.connect
  simp only [does_bind, does_get]
  split
  · rw [does_pure]
    exact h _ _ _ (Moves.turns rfl (.refl l))
  · split
    · rename_i s hs
      simp only [does_bind, does_inner, does_modify, does_pure, does_ask]
      intro x
      have hc : Moves ops b l [⟨.ask b (.connect addr), x⟩] { l with connecting := true } :=
        (Move.connecting true).moves.trans (.idle (@Idle.ask H b (.connect addr) rfl x))
      cases x with
      | ok _ => simpa using h _ _ _ (hc.turns rfl)
      | error f =>
        simp only [does_bind, does_modify, does_pure]
        exact h _ _ _ ((hc.trans (Move.connecting false).moves).turns rfl)
    · rename_i hs
      simp only [does_bind, does_newEngine]
      intro x
      cases x with
      | error f =>
        simp only [does_bind, does_pure]
        exact h _ _ _ (Moves.turns rfl (.idle (.newEngine _ _ (.error f))))
      | ok e =>
        simp only [does_bind, does_modify, does_pure, does_inner, does_ask]
        intro x
        cases x with
        | ok _ =>
          rw [does_pure]
          exact h _ _ _ (.drawn hs (.ok ()) true)
        | error f =>
          simp only [does_bind, does_modify, does_pure]
          exact h _ _ _ (.drawn hs (.error f) false)

theorem listen_does {n : Nat} {post : Outcome → Trace H → Layer H.Source H.Engine → Prop}
    (h : ∀ r d l', Turns ops b (.op (.listen n)) l d l' → post r d l') : Does b (Secure.listen n) l post := by
  unfold Secure.listen
  simp only [does_bind, does_get]
  split
  · rw [does_pure]
    exact h _ _ _ (Moves.turns rfl (.refl l))
  · simp only [does_bind, does_inner, does_ask]
    intro x
    cases x with
    | error f =>
      rw [does_pure]
      exact h _ _ _ (Moves.turns rfl (.idle (@Idle.ask H b (.listen n) rfl (.error f))))
    | ok _ =>
      simp only [does_bind, does_modify, does_pure]
      exact h _ _ _ .listened

theorem encrypt_does (hl : l.Sound) (ht : l.txClosed = false) {data : Bytes} (clear : Except Fault Bool)
    {post : Outcome → Trace H → Layer H.Source H.Engine → Prop} (h : ∀ r d l', Moves ops b l d l' → post r d l') :
    Does b (Secure.encrypt ops me data clear) l post := by
  unfold Secure.encrypt
  split
  · simpa using h _ _ _ (.refl l)
  · simpa using h _ _ _ (.refl l)
  · simp only [does_bind, does_get]
    split
    · simpa using h _ _ _ (.refl l)
    · rename_i s hs
      have h₂ : Moves ops b l [] _ := (Move.sealed data s.applDataSent hs id ht).moves
      have h₃ : Moves ops b l [] _ := (Move.sealed data true hs (fun _ => rfl) ht).moves
      simp only [does_bind, does_setSession]
      split
      · simpa using h _ _ _ h₂
      · split
        · simpa using h _ _ _ h₂
        · simp only [does_bind, does_setSession]
          refine flush_moves (h₃.sound hl) fun r d l' hm => ?_
          simpa using h _ _ _ (h₃.trans hm)

theorem write_does (hl : l.Sound) {data : Bytes} {post : Outcome → Trace H → Layer H.Source H.Engine → Prop}
    (h : ∀ r d l', Moves ops b l d l' → post r d l') : Does b (Secure.write ops me data) l post := by
  unfold Secure.write
  simp only [does_bind, does_get]
  have h₀ : ∀ r, post r [] l := fun r => h r _ _ (.refl l)
  split
  · simpa using h₀ _
  · simpa using h₀ _
  · simpa using h₀ _
  · split
    · simpa using h₀ _
    · rename_i ht
      have ht : l.txClosed = false := by simpa using ht
      split
      · simpa using h₀ _
      · split
        · rw [does_bind]
          refine flush_moves hl fun r d l' hm => ?_
          exact encrypt_does (hm.sound hl) (hm.txClosed.trans ht) r fun x d₂ l₂ hm₂ => h _ _ _ (hm.trans hm₂)
        · exact encrypt_does hl ht (.ok true) fun x d₂ l₂ hm₂ => h _ _ _ hm₂

/-- An operation that is passed down. -/
theorem below_does {o : Op} (ho : o.isIdle) {absent : o.Reply}
    {post : o.Reply → Trace H → Layer H.Source H.Engine → Prop} (h : ∀ r d, Moves ops b l d l → post r d l) :
    Does (α := no_index o.Reply) b (below o absent) l post := by
  unfold below
  simp only [does_bind, does_inner, does_ask]
  exact fun x => h _ _ (.idle (.ask ho x))

/-- **A method that does not end the connection enters, and then moves.** -/
theorem step_does {m : Method} (hm : m.leaves = false) (hl : l.Sound)
    {post : m.Reply → Trace H → Layer H.Source H.Engine → Prop}
    (h : ∀ r d l', Turns ops b m l d l' → post r d l') :
    Does (α := no_index m.Reply) b (Secure.step ops me m) l post := by
  cases m with
  | op o =>
    cases o with
    | lower e => exact lower_does hl h
    | recved n => exact recved_does fun d l' ht => h () _ _ ht
    | connect a => exact connect_does h
    | listen n => exact listen_does h
    | write data flags => exact write_does hl fun r d l' hm => h _ _ _ (hm.turns rfl)
    | output =>
      unfold Secure.step
      simp only [does_bind, does_pure]
      exact flush_moves hl fun r d l' hm => by simpa using h _ _ _ (hm.turns rfl)
    | abort | close | shutdown => cases hm
    | _ => exact below_does rfl fun r d hm => h r d l (hm.turns rfl)
  | settled v => exact settle_does hl fun d l' ht => h () _ _ ht
  | dealloc => cases hm

end Tls

end Conduit
