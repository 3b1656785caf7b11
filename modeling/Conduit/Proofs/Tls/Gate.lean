import Conduit.Proofs.Tls.Closing

/-!
# The gate of the handshake

Until its handshake is done, a TLS layer hands up no plaintext and takes none. An active open learns that the connection
is there when the handshake is done, once, and before any plaintext.

* `Shut`: what a layer does that leaves the gate as it is.
* `Passes`: what a layer does when the handshake is done.
* `call_gate`: a call leaves the gate as it is, or begins an active open, or passes.
* `Life.guarded`: **nothing passes the gate before the handshake is done**, in any life of a layer.
-/

namespace Conduit

open Layer Layer.Act Secure

namespace Tls

variable {H : Host}

/-- Whether a request tells the receiver that the connection is there. -/
def greets : Exchange (io H) → Bool
  | ⟨.emit (.connected (.ok ())), _⟩ => true
  | _ => false

/-- Whether a request hands up plaintext. -/
def offers : Exchange (io H) → Bool
  | ⟨.emit (.recv _), _⟩ => true
  | _ => false

/-- Whether a request does neither. -/
def tacit (x : Exchange (io H)) : Bool := !greets x && !offers x

variable {ops : EngineOps H.Engine H.Shared} {b me : Handle} {l l₀ l₁ l' : Layer H.Source H.Engine}
  {s s' : Session H.Engine} {d d' u : Trace H}

theorem greets_of_tacit {x : Exchange (io H)} (h : tacit x = true) : greets x = false := by
  unfold tacit at h
  simp only [Bool.and_eq_true, Bool.not_eq_true'] at h
  exact h.1

theorem offers_of_tacit {x : Exchange (io H)} (h : tacit x = true) : offers x = false := by
  unfold tacit at h
  simp only [Bool.and_eq_true, Bool.not_eq_true'] at h
  exact h.2

theorem Acks.tacit {n : Nat} (h : Acks b n u) : ∀ x ∈ u, tacit x = true := by
  cases h <;> simp [Tls.tacit, greets, offers]

theorem Drops.tacit (h : Drops b u) : ∀ x ∈ u, tacit x = true := by
  cases h <;> simp [Tls.tacit, greets, offers]

theorem Relays.tacit {ps : List Push} (h : Relays b ps u) : ∀ x ∈ u, tacit x = true := by
  induction h with
  | nil => simp
  | cons h _ ih =>
    rw [List.forall_mem_append]
    refine ⟨?_, ih⟩
    cases h <;> simp [Tls.tacit, greets, offers]

theorem Drives.tacit {α : Type} {p : EngineAct H.Shared (H.Engine × α)} {a : α} (h : Drives b s p a u s') :
    ∀ x ∈ u, tacit x = true := by
  cases h with
  | intro _ _ hu => exact hu.tacit

theorem Breaks.tacit {r : RxState} (h : Breaks b r u) : ∀ x ∈ u, tacit x = true := by
  cases h with
  | told _ hu => exact List.forall_mem_cons.2 ⟨rfl, hu.tacit⟩
  | known hu => exact hu.tacit

/-! ## What leaves the gate as it is -/

/-- What a layer does that leaves the gate as it is: it greets nobody, it hands up plaintext only after the handshake,
and the handshake goes no further than it was. -/
structure Shut (l : Layer H.Source H.Engine) (d : Trace H) (l' : Layer H.Source H.Engine) : Prop where
  greets : ∀ x ∈ d, greets x = false
  offers : ∀ x ∈ d, offers x = true → l.phase = .established
  phase : l'.phase = .handshaking ∨ l'.phase = .established → l'.phase = l.phase
  connecting : l'.connecting = true → l.connecting = true

theorem Shut.of_tacit (h : ∀ x ∈ d, tacit x = true)
    (hp : l'.phase = .handshaking ∨ l'.phase = .established → l'.phase = l.phase)
    (hc : l'.connecting = true → l.connecting = true) : Shut l d l' :=
  ⟨fun x hx => greets_of_tacit (h x hx), fun x hx ho => absurd ho (by simp [offers_of_tacit (h x hx)]), hp, hc⟩

theorem Shut.refl (l : Layer H.Source H.Engine) : Shut l [] l := .of_tacit (by simp) (fun _ => rfl) id

/-- Plaintext is handed up. -/
theorem Shut.offered (hp : l.phase = .established) {data : Bytes} : Shut l [⟨.emit (.recv data), ()⟩] l :=
  ⟨by simp [Tls.greets], fun _ _ _ => hp, fun _ => rfl, id⟩

theorem Shut.trans (h : Shut l d l₁) (h' : Shut l₁ d' l') : Shut l (d ++ d') l' := by
  have hback : ∀ p, p = Phase.handshaking ∨ p = .established → l₁.phase = p → l.phase = p := by
    intro p hp h₁
    rw [← h.phase (by rwa [h₁]), h₁]
  refine ⟨fun x hx => ?_, fun x hx ho => ?_, fun hp => ?_, fun hc => h.connecting (h'.connecting hc)⟩
  · rcases List.mem_append.1 hx with hx | hx
    · exact h.greets x hx
    · exact h'.greets x hx
  · rcases List.mem_append.1 hx with hx | hx
    · exact h.offers x hx ho
    · exact hback _ (.inr rfl) (h'.offers x hx ho)
  · exact (hback _ hp (h'.phase hp).symm).symm

/-- Before the handshake nothing is handed up, and the handshake is not done. -/
theorem Shut.early (h : Shut l d l') (hp : l.phase = .handshaking) :
    (∀ x ∈ d, tacit x = true) ∧ l'.phase ≠ .established := by
  refine ⟨fun x hx => ?_, fun hp' => ?_⟩
  · have hoffers : Tls.offers x = false := by
      rw [Bool.eq_false_iff]
      intro ho
      rw [h.offers x hx ho] at hp
      cases hp
    unfold Tls.tacit
    rw [h.greets x hx, hoffers]
    rfl
  · have := h.phase (.inr hp')
    rw [hp', hp] at this
    cases this

/-- A program that leaves the gate as it is. -/
def Shuts {α : Type} (b : Handle) (p : Secure.Act H α) : Prop := ∀ l, Does b p l fun _ d l' => Shut l d l'

section

variable {α β : Type}

theorem Shuts.bind {p : Secure.Act H α} {f : α → Secure.Act H β} (hp : Shuts b p) (hf : ∀ a, Shuts b (f a)) :
    Shuts b (p >>= f) := fun l =>
  (does_bind p f).2 ((hp l).mono fun a _ l₁ h => (hf a l₁).mono fun _ _ _ h' => h.trans h')

theorem shuts_pure (a : α) : Shuts b (pure a : Secure.Act H α) := fun l => (does_pure a).2 (.refl l)

/-- What is done with the state that was read. -/
theorem shuts_get {f : Layer H.Source H.Engine → Secure.Act H β}
    (h : ∀ l, Does b (f l) l fun _ d l' => Shut l d l') : Shuts b (get >>= f) := fun l =>
  (does_bind _ _).2 (does_get.2 (h l))

theorem shuts_modify {f : Layer H.Source H.Engine → Layer H.Source H.Engine}
    (hp : ∀ l, (f l).phase = .handshaking ∨ (f l).phase = .established → (f l).phase = l.phase)
    (hc : ∀ l, (f l).connecting = true → l.connecting = true) : Shuts b (modify f : Secure.Act H PUnit) := fun l =>
  (does_modify f).2 (.of_tacit (by simp) (hp l) (hc l))

theorem shuts_setSession (s : Session H.Engine) : Shuts b (setSession s) :=
  shuts_modify (fun _ _ => rfl) fun _ h => h

theorem shuts_note (n : Note) : Shuts b (note n : Secure.Act H Unit) := fun l => (does_note n).2 (.refl l)

theorem shuts_inner : Shuts b (inner : Secure.Act H (Option Handle)) := fun l => does_inner.2 (.refl l)

theorem shuts_ask (x : Handle) (o : Op) : Shuts b (ask x o : Secure.Act H o.Reply) := fun _ =>
  (does_ask x o).2 fun _ => .of_tacit (by simp [tacit, greets, offers]) (fun _ => rfl) id

theorem shuts_emit {e : Event} (he : ∀ x, tacit (H := H) ⟨.emit e, x⟩ = true) : Shuts b (emit e : Secure.Act H Unit) :=
  fun _ => (does_emit e).2 (.of_tacit (by simp [he]) (fun _ => rfl) id)

theorem shuts_fail (f : Fault) : Shuts b (fail f : Secure.Act H Unit) := fun _ =>
  (does_fail f).2 (.of_tacit (by simp [tacit, greets, offers]) (fun _ => rfl) id)

theorem shuts_release : Shuts b (release : Secure.Act H Unit) := fun _ =>
  does_release.2 (.of_tacit (by simp [tacit, greets, offers]) (fun _ => rfl) id)

theorem shuts_cover (new : Handle) (layer : Layer H.Source H.Engine) :
    Shuts b (cover new layer : Secure.Act H (Except Fault Handle)) := fun _ =>
  (does_cover new layer).2 fun _ => .of_tacit (by simp [tacit, greets, offers]) (fun _ => rfl) id

theorem shuts_newEngine (config : Config H.Source) (name : Option ServerName) :
    Shuts b (newEngine config name : Secure.Act H (Except Fault H.Engine)) := fun _ =>
  (does_newEngine config name).2 fun _ => .of_tacit (by simp [tacit, greets, offers]) (fun _ => rfl) id

end

/-! ## Shared parts -/

/-- An engine that runs asks for room below and writes, whatever is held, and leaves the layer alone. -/
theorem drive_tacit {α : Type} (s : Session H.Engine) (p : EngineAct H.Shared (H.Engine × α)) :
    Does b (s.drive p) l fun _ d l' => (∀ x ∈ d, tacit x = true) ∧ l' = l := by
  have hanswer : ∀ (r : RecordReq H.Shared) (f : Feed), Does b (Feed.answer r) f fun _ d _ => ∀ x ∈ d, tacit x = true := by
    intro r f
    cases r with
    | push data =>
      refine push_does fun _ u hu => ?_
      simpa using (Relays.cons hu .nil).tacit
    | shared => exact (does_request_of_ne (by simp)).2 fun _ => by simp [deeds, isDeed]
    | setShared v => exact (does_request_of_ne (by simp)).2 fun _ => by simp [deeds, isDeed]
    | _ => simp [Feed.answer]
  have hrun : ∀ f : Feed, Does b (p.run Feed.answer) f fun _ d _ => ∀ x ∈ d, tacit x = true := by
    induction p with
    | done a => simp
    | ask r next ih =>
      intro f
      rw [Program.run_ask, does_bind]
      refine (hanswer r f).mono fun x d f' hd => (ih x f').mono fun _ d' _ hd' => ?_
      exact List.forall_mem_append.2 ⟨hd, hd'⟩
  intro t a l' ht hb
  obtain ⟨u, v, ⟨c, f'⟩, rfl, hu, hv⟩ := ht.of_bind
  cases hv
  rw [List.append_nil] at hb ⊢
  exact ⟨hrun _ u c f' hu hb, rfl⟩

theorem drive_shuts {α : Type} (s : Session H.Engine) (p : EngineAct H.Shared (H.Engine × α)) :
    Shuts b (s.drive p : Secure.Act H (Session H.Engine × α)) := fun _ =>
  (drive_tacit s p).mono fun _ _ _ h => .of_tacit h.1 (fun _ => by rw [h.2]) fun hc => by rwa [h.2] at hc

theorem ackLower_shuts (n : Nat) : Shuts b (ackLower n : Secure.Act H Unit) := fun _ =>
  ackLower_does fun _ hu => .of_tacit hu.tacit (fun _ => rfl) id

theorem outputLower_shuts : Shuts b (outputLower me : Secure.Act H Unit) := fun _ =>
  outputLower_does fun _ => .of_tacit (by simp [tacit, greets, offers]) (fun _ => rfl) id

theorem dropLower_shuts : Shuts b (dropLower : Secure.Act H Unit) := fun _ =>
  dropLower_does fun _ hu => .of_tacit hu.tacit (fun _ => rfl) id

theorem ackOverhead_shuts (s : Session H.Engine) : Shuts b (ackOverhead me s : Secure.Act H Unit) := fun _ =>
  ackOverhead_does fun _ hu => .of_tacit hu.tacit (fun _ => rfl) id

theorem flush_shuts : Shuts b (flush ops me) := by
  unfold flush
  refine shuts_get fun l => ?_
  split
  · exact shuts_pure _ l
  · refine Shuts.bind (drive_shuts _ _) (fun x => Shuts.bind (shuts_setSession _) fun _ => ?_) l
    split
    · exact shuts_pure _
    · exact Shuts.bind outputLower_shuts fun _ => shuts_pure _

theorem flushOn_shuts (what : String) : Shuts b (flushOn ops me what) := by
  unfold flushOn
  refine flush_shuts.bind fun r => ?_
  split
  · exact shuts_pure _
  · exact shuts_note _

theorem afterRxClosed_shuts : Shuts b (afterRxClosed me : Secure.Act H Unit) := fun _ =>
  afterRxClosed_does (.of_tacit (by simp) (fun _ => rfl) id)

theorem deliverEof_shuts : Shuts b (deliverEof me : Secure.Act H Unit) := by
  unfold deliverEof
  refine shuts_get fun l => ?_
  split
  · exact shuts_pure _ l
  · refine Shuts.bind ?_ (fun _ => Shuts.bind (shuts_note _) fun _ => Shuts.bind (shuts_emit fun _ => rfl) fun _ =>
      afterRxClosed_shuts) l
    exact shuts_modify (fun _ _ => rfl) fun _ h => h

theorem failSession_shuts (f : Fault) : Shuts b (failSession me f : Secure.Act H Unit) := fun _ =>
  failSession_does fun _ hu => .of_tacit hu.tacit (fun hp => by simp [Layer.broken] at hp) (fun hc => by cases hc)

/-- After the handshake plaintext is handed up. -/
theorem offerHeld_shut (hp : l.phase = .established) : Does b offerHeld l fun _ d l' => Shut l d l' := by
  unfold offerHeld
  simp only [does_bind, does_get]
  split
  · split
    · exact shuts_pure _ l
    · refine offer_does ?_
      exact (Shut.offered hp).trans (.of_tacit (d := []) (by simp) (fun _ => rfl) id)
  · exact shuts_pure _ l

theorem openRecord_shut (hp : l.phase = .established) (s : Session H.Engine) :
    Does b (openRecord ops me s) l fun _ d l' => Shut l d l' := by
  unfold openRecord
  simp only [does_bind, does_get]
  refine (drive_tacit s _).mono fun r u l₁ h => ?_
  obtain ⟨hu, rfl⟩ := h
  obtain ⟨s₁, outcome⟩ := r
  simp only [does_setSession, List.nil_append]
  -- what comes after the engine has run
  have hthen : ∀ {p : Secure.Act H Unit}, Does b p (l₁.holding s₁) (fun _ d l' => Shut (l₁.holding s₁) d l') →
      Does b p (l₁.holding s₁) fun _ d l' => Shut l₁ (u ++ d) l' := by
    intro p hd
    have hrun : Shut l₁ u (l₁.holding s₁) := .of_tacit hu (fun _ => rfl) id
    exact hd.mono fun _ _ _ h => hrun.trans h
  split
  · rename_i text
    refine hthen ?_
    -- the layer is established whatever session it holds, so plaintext may be handed up
    have hoffer : ∀ s' v, (∀ x ∈ v, tacit x = true) →
        Does b offerHeld (l₁.holding s') fun _ d l' => Shut (l₁.holding s₁) (v ++ d) l' := by
      intro s' v hv
      have hacked : Shut (l₁.holding s₁) v (l₁.holding s') := .of_tacit hv (fun _ => rfl) id
      exact (offerHeld_shut (l := l₁.holding s') hp).mono fun _ _ _ h => hacked.trans h
    simp only [does_bind, does_setSession, List.nil_append]
    split
    · rw [does_bind]
      exact ackOverhead_does fun v hv => hoffer _ v hv.tacit
    · exact hoffer _ [] (by simp)
  · have hend : Shuts b (do if (← get).rxState = .eofQueued then deliverEof me : Secure.Act H Unit) := by
      refine shuts_get fun l => ?_
      split
      · exact deliverEof_shuts l
      · exact shuts_pure _ l
    refine hthen ?_
    split
    · exact Shuts.bind (ackOverhead_shuts _) (fun _ => hend) _
    · exact hend _
  · exact hthen (Shuts.bind (ackOverhead_shuts _) (fun _ => Shuts.bind (shuts_note _) fun _ => deliverEof_shuts) _)
  · exact hthen (failSession_shuts _ _)

theorem deliver_shuts : Shuts b (deliver ops me) := by
  unfold deliver
  refine shuts_get fun l => ?_
  split
  · exact shuts_pure _ l
  · rename_i hpr
    simp only [Bool.or_eq_true, decide_eq_true_eq, not_or, Decidable.not_not] at hpr
    split
    · exact shuts_pure _ l
    · split
      · exact shuts_pure _ l
      · split
        · refine offer_does ?_
          exact (Shut.offered hpr.1).trans (.of_tacit (d := []) (by simp) (fun _ => rfl) id)
        · exact openRecord_shut hpr.1 _

/-! ## Methods that leave the gate as it is -/

theorem settle_shuts (v : Outcome) : Shuts b (settle ops me v) := by
  unfold settle
  refine shuts_get fun l => ?_
  split
  · exact shuts_pure _ l
  · split
    · exact shuts_pure _ l
    · split
      · exact Shuts.bind (shuts_setSession _) (fun _ => deliver_shuts) l
      · exact Shuts.bind (shuts_setSession _) (fun _ => shuts_note _) l

theorem recved_shuts (n : Nat) : Shuts b (recved me n : Secure.Act H Unit) := by
  unfold recved
  refine shuts_get fun l => ?_
  split
  · rename_i s _ _
    have hack : Shuts b (do
        setSession { s with passedUnrecved := s.passedUnrecved - min n s.passedUnrecved }
        ackLower (min n s.passedUnrecved) : Secure.Act H Unit) :=
      Shuts.bind (shuts_setSession _) fun _ => ackLower_shuts _
    split
    · exact Shuts.bind (shuts_note _) (fun _ => hack) l
    · exact hack l
  · exact shuts_pure _ l

theorem dropData_shuts (n : Nat) : Shuts b (dropData me n : Secure.Act H Unit) :=
  Shuts.bind (shuts_note _) fun _ => ackLower_shuts n

theorem lowerEof_shuts : Shuts b (lowerEof ops me) := by
  unfold lowerEof
  refine shuts_get fun l => ?_
  split
  · split
    · exact shuts_pure _ l
    · refine Shuts.bind ?_ (fun _ => Shuts.bind (shuts_note _) fun _ => deliver_shuts) l
      exact shuts_modify (fun _ _ => rfl) fun _ h => h
  · refine Shuts.bind (shuts_note _) (fun _ => Shuts.bind ?_ fun _ => Shuts.bind dropLower_shuts fun _ =>
      shuts_fail _) l
    exact shuts_modify (fun _ _ => rfl) fun _ h => h
  · exact shuts_pure _ l
  · exact shuts_pure _ l

theorem create_shuts (config : Config H.Source) (name : Option String) :
    Shuts b (Layer.create newEngine config name) := by
  have hnew : ∀ (n : Option ServerName) (g : H.Engine → Layer H.Source H.Engine),
      Shuts b (do pure ((← newEngine config n).map g)) :=
    fun n g => Shuts.bind (shuts_newEngine config n) fun _ => shuts_pure _
  unfold Layer.create
  dsimp only
  split
  · exact hnew _ _
  · split
    · exact shuts_pure _
    · split
      · exact shuts_pure _
      · exact hnew _ _

theorem accept_shuts (new : Handle) : Shuts b (Secure.accept me new : Secure.Act H Outcome) := by
  unfold Secure.accept
  refine shuts_get fun l => Shuts.bind (create_shuts l.config none) (fun x => ?_) l
  split
  · exact shuts_pure _
  · refine Shuts.bind (shuts_cover _ _) fun y => ?_
    split
    · exact shuts_pure _
    · exact Shuts.bind (shuts_note _) fun _ => Shuts.bind (shuts_emit fun _ => rfl) fun _ => shuts_pure _

theorem listen_shuts (n : Nat) : Shuts b (Secure.listen n : Secure.Act H Outcome) := by
  unfold Secure.listen
  refine shuts_get fun l => ?_
  split
  · exact shuts_pure _ l
  · refine Shuts.bind shuts_inner (fun x => ?_) l
    split
    · exact shuts_pure _
    · refine Shuts.bind (shuts_ask _ _) fun y => ?_
      split
      · exact shuts_pure _
      · refine Shuts.bind ?_ fun _ => shuts_pure _
        exact shuts_modify (fun _ hp => by simp at hp) fun _ h => h

theorem abort_shuts : Shuts b (Secure.abort me : Secure.Act H Unit) := by
  unfold Secure.abort
  refine Shuts.bind ?_ fun _ => Shuts.bind shuts_inner fun x => ?_
  · exact shuts_modify (fun _ _ => rfl) fun _ h => h
  · split
    · exact Shuts.bind (shuts_ask _ _) fun _ => shuts_note _
    · exact shuts_note _

theorem sendCloseNotify_shuts : Shuts b (sendCloseNotify ops me) := by
  unfold sendCloseNotify
  refine shuts_get fun l => ?_
  split
  · split
    · exact shuts_pure _ l
    · refine Shuts.bind (shuts_setSession _) (fun _ => Shuts.bind flush_shuts fun r => ?_) l
      split
      · exact shuts_pure _
      · exact shuts_note _
  · exact shuts_pure _ l

theorem close_shuts : Shuts b (close ops me) := by
  unfold close
  refine Shuts.bind sendCloseNotify_shuts fun _ => Shuts.bind shuts_inner fun x => ?_
  -- whether there was a connection below to close or not
  have hend : Shuts b (do
      note (.debug "tls connection closed" [me.field, ("rx_closed", Text.boolText ((← get).rxState = .closed))])
      modify fun l => { l with session := none, txClosed := true, rxState := .closed }
      release
      pure (.ok ()) : Secure.Act H Outcome) := by
    refine shuts_get fun l => ?_
    refine Shuts.bind (shuts_note _) (fun _ => Shuts.bind ?_ fun _ => Shuts.bind shuts_release fun _ => shuts_pure _) l
    exact shuts_modify (fun _ _ => rfl) fun _ h => h
  split
  · refine Shuts.bind (shuts_ask _ _) fun lower => ?_
    cases lower with
    | error f => exact shuts_pure _
    | ok _ => exact hend
  · exact hend

theorem shutdownWrite_shuts : Shuts b (shutdownWrite ops me) := by
  unfold shutdownWrite
  refine shuts_get fun l => ?_
  split
  · exact shuts_pure _ l
  · refine Shuts.bind sendCloseNotify_shuts (fun _ => Shuts.bind shuts_inner fun x => ?_) l
    split
    · exact shuts_pure _
    · refine Shuts.bind (shuts_ask _ _) fun y => ?_
      split
      · exact shuts_pure _
      · refine Shuts.bind (shuts_modify (fun _ _ => rfl) fun _ h => h) fun _ => shuts_get fun l => ?_
        split
        · exact Shuts.bind afterRxClosed_shuts (fun _ => shuts_pure _) l
        · exact shuts_pure _ l

theorem shutdownRead_shuts : Shuts b (shutdownRead me : Secure.Act H Outcome) := by
  unfold shutdownRead
  refine Shuts.bind shuts_inner fun x => ?_
  split
  · exact shuts_pure _
  · refine Shuts.bind (shuts_ask _ _) fun y => ?_
    split
    · exact shuts_pure _
    · have hend : Shuts b (do
          modify fun l => { l with rxState := .closed }
          afterRxClosed me
          pure (.ok ()) : Secure.Act H Outcome) := by
        refine Shuts.bind ?_ fun _ => Shuts.bind afterRxClosed_shuts fun _ => shuts_pure _
        exact shuts_modify (fun _ _ => rfl) fun _ h => h
      refine shuts_get fun l => ?_
      split
      · exact hend l
      · exact Shuts.bind (shuts_setSession _) (fun _ => Shuts.bind (shuts_note _) fun _ =>
          Shuts.bind (ackLower_shuts _) fun _ => hend) l

theorem encrypt_shuts (data : Bytes) (clear : Except Fault Bool) : Shuts b (Secure.encrypt ops me data clear) := by
  unfold Secure.encrypt
  split
  · exact shuts_pure _
  · exact Shuts.bind (shuts_note _) fun _ => shuts_pure _
  · refine shuts_get fun l => ?_
    split
    · exact shuts_pure _ l
    · refine Shuts.bind (shuts_setSession _) (fun _ => ?_) l
      split
      · exact shuts_pure _
      · split
        · exact Shuts.bind (shuts_note _) fun _ => shuts_pure _
        · exact Shuts.bind (shuts_setSession _) fun _ => Shuts.bind flush_shuts fun _ => shuts_pure _

theorem write_shuts (data : Bytes) : Shuts b (Secure.write ops me data) := by
  unfold Secure.write
  refine shuts_get fun l => ?_
  split
  · exact shuts_pure _ l
  · exact shuts_pure _ l
  · exact shuts_pure _ l
  · split
    · exact shuts_pure _ l
    · split
      · exact shuts_pure _ l
      · dsimp only
        split
        · exact Shuts.bind flush_shuts (fun _ => encrypt_shuts data _) l
        · exact encrypt_shuts data (.ok true) l

theorem below_shuts (o : Op) (absent : o.Reply) : Shuts b (below o absent : Secure.Act H o.Reply) := by
  unfold below
  refine Shuts.bind shuts_inner fun x => ?_
  split
  · exact shuts_ask _ o
  · exact shuts_pure _

/-! ## Methods that may open it -/

/-- What the engine of `l` is asked, with `data` come in, when it takes the handshake on, and reports that it is done. -/
def Finishes (ops : EngineOps H.Engine H.Shared) (b : Handle) (l : Layer H.Source H.Engine) (data : Bytes)
    (u : Trace H) : Prop :=
  l.phase = .handshaking ∧ ∃ s s', l.session = some s ∧
    Drives b { s with rx := s.rx.push data } (ops.handshake s.engine) (.ok .done) u s'

/-- What a layer does when the handshake is done: first of all it greets, if an active open is waiting for that. -/
inductive Passes (ops : EngineOps H.Engine H.Shared) (b : Handle) (l : Layer H.Source H.Engine) (data : Bytes) :
    Trace H → Layer H.Source H.Engine → Prop
  | intro {u v d : Trace H} {l₁ l' : Layer H.Source H.Engine} (hu : Finishes ops b l data u)
      (hv : ∀ x ∈ v, tacit x = true) (hp : l₁.phase = .established) (hc : l₁.connecting = false) (hd : Shut l₁ d l') :
      Passes ops b l data (u ++ v ++ ((if l.connecting then [⟨.emit (.connected (.ok ())), ()⟩] else []) ++ d)) l'

theorem establish_greets {post : Unit → Trace H → Layer H.Source H.Engine → Prop}
    (h : ∀ l', l'.phase = .established → l'.connecting = false →
      post () (if l.connecting then [⟨.emit (.connected (.ok ())), ()⟩] else []) l') :
    Does b (establish ops me) l post := by
  unfold establish
  simp only [does_bind, does_modify, does_get, does_note]
  split
  · rename_i hc
    simp only [hc, if_true] at h
    simp only [does_bind, does_modify, does_emit]
    exact h _ rfl rfl
  · rename_i hc
    simp only [hc] at h
    simpa using h _ rfl (by simpa using hc)

/-- With what has come in taken up, the handshake goes on, or plaintext is handed up. -/
theorem receive_gate {data : Bytes} (hl : l.Sound) (hp : l.phase = l₀.phase) (hc : l.connecting = l₀.connecting)
    (hs : ∀ s, l.session = some s → ∃ s₀, l₀.session = some s₀ ∧ s = { s₀ with rx := s₀.rx.push data }) :
    Does b (receive ops me) l fun _ d l' => Shut l₀ d l' ∨ Passes ops b l₀ data d l' := by
  have hback : ∀ {d : Trace H} {l' : Layer H.Source H.Engine}, Shut l d l' → Shut l₀ d l' := fun h =>
    ⟨h.greets, fun x hx ho => hp ▸ h.offers x hx ho, fun h' => hp ▸ h.phase h', fun h' => hc ▸ h.connecting h'⟩
  unfold receive
  simp only [does_bind, does_get]
  split
  · rename_i hshake
    split
    · exact (does_pure _).2 (.inl (hback (.refl l)))
    · rename_i s hsome
      obtain ⟨s₀, hs₀, rfl⟩ := hs s hsome
      rw [does_bind]
      refine drive_does (hl _ hsome).rx fun r u s' hd => ?_
      simp only [does_bind, does_setSession]
      refine outputLower_does fun x => ackLower_does fun v hv => ?_
      have hask : ∀ y ∈ (⟨.ask b .output, x⟩ :: v : Trace H), tacit y = true :=
        List.forall_mem_cons.2 ⟨rfl, hv.tacit⟩
      have htacit : ∀ y ∈ u ++ (⟨.ask b .output, x⟩ :: v), tacit y = true :=
        List.forall_mem_append.2 ⟨hd.tacit, hask⟩
      -- as long as the handshake is not done, nothing but this happens
      have hmore : Shut l (u ++ ⟨.ask b .output, x⟩ :: v) (l.holding { s' with bytesRead := 0 }) :=
        .of_tacit htacit (fun _ => rfl) id
      cases r with
      | error f =>
        refine (failSession_shuts f _).mono fun _ d l' h => .inl (hback ?_)
        simpa using hmore.trans h
      | ok p =>
        cases p with
        | inProgress =>
          rw [does_pure]
          exact .inl (hback (by simpa using hmore))
        | done =>
          have hfin : Finishes ops b l₀ data u := ⟨hp ▸ hshake, s₀, s', hs₀, hd⟩
          simp only [does_bind]
          refine establish_greets fun l₁ hp₁ hc₁ => (deliver_shuts l₁).mono fun _ d l' h => .inr ?_
          have hpass := Passes.intro hfin hask hp₁ hc₁ h
          have hconn : (l.holding { s' with bytesRead := 0 }).connecting = l₀.connecting := hc
          rw [hconn]
          simpa using hpass
  · exact (deliver_shuts l).mono fun _ d l' h => .inl (hback h)

theorem lowerData_gate {data : Bytes} (hl : l.Sound) :
    Does b (lowerData ops me data) l fun _ d l' => Shut l d l' ∨ Passes ops b l data d l' := by
  unfold lowerData
  have hdrop : Does b (dropData me data.length) l fun _ d l' => Shut l d l' ∨ Passes ops b l data d l' :=
    (dropData_shuts data.length l).mono fun _ _ _ h => .inl h
  simp only [does_bind, does_get]
  split
  · rename_i s hs
    split
    · simp only [does_bind, does_setSession, List.nil_append]
      have hl₁ : (l.holding { s with rx := s.rx.push data }).Sound :=
        .holding ⟨(hl _ hs).rx.push, (hl _ hs).rxApp, (hl _ hs).inFlight⟩
      refine receive_gate hl₁ rfl rfl ?_
      rintro s' ⟨⟩
      exact ⟨s, hs, rfl⟩
    · exact hdrop
  · exact hdrop

/-- Only ciphertext, and the connection below once it is there, take the handshake on. -/
theorem lower_gate (hl : l.Sound) (e : Event) :
    Does b (lower ops me e) l fun _ d l' => Shut l d l' ∨ Passes ops b l (Method.op (.lower e)).arrived d l' := by
  have hshut : ∀ {p : Secure.Act H Outcome}, Shuts b p →
      Does b p l fun _ d l' => Shut l d l' ∨ Passes ops b l (Method.op (.lower e)).arrived d l' :=
    fun h => (h l).mono fun _ _ _ h => .inl h
  unfold lower
  split
  · refine hshut (shuts_get fun l => ?_)
    split
    · exact shuts_pure _ l
    · exact accept_shuts _ l
  · simp only [does_bind, does_note, does_pure, List.nil_append, List.append_nil]
    refine receive_gate hl rfl rfl fun s hs => ⟨s, hs, ?_⟩
    simp [Method.arrived, Segments.push]
  · refine hshut (Shuts.bind ?_ fun _ => Shuts.bind (shuts_emit fun _ => rfl) fun _ => shuts_pure _)
    exact shuts_modify (fun _ _ => rfl) fun _ h => by cases h
  · simp only [does_bind, does_pure, List.append_nil]
    exact lowerData_gate hl
  · exact hshut (Shuts.bind lowerEof_shuts fun _ => shuts_pure _)
  · refine hshut (Shuts.bind (shuts_note _) fun _ => Shuts.bind (flushOn_shuts _) fun _ => shuts_get fun l => ?_)
    split
    · exact Shuts.bind (shuts_emit fun _ => rfl) (fun _ => shuts_pure _) l
    · exact shuts_pure _ l
  · exact hshut (Shuts.bind (flushOn_shuts _) fun _ => Shuts.bind deliver_shuts fun _ =>
      Shuts.bind (shuts_emit fun _ => rfl) fun _ => shuts_pure _)
  · refine hshut (Shuts.bind (shuts_note _) fun _ => Shuts.bind ?_ fun _ => Shuts.bind (shuts_fail _) fun _ =>
      shuts_pure _)
    exact shuts_modify (fun _ _ => rfl) fun _ h => h

/-- An active open waits for the handshake only when the connection below has begun one. -/
theorem connect_gate (addr : Endpoint) :
    Does b (Secure.connect addr) l fun r d l' => (∀ x ∈ d, tacit x = true) ∧ l'.phase = l.phase ∧
      (l'.connecting = true → l.connecting = true ∨ r = .ok ()) := by
  unfold Secure.connect
  simp only [does_bind, does_get]
  split
  · rw [does_pure]
    exact ⟨by simp, rfl, .inl⟩
  · split
    · simp only [does_bind, does_inner, does_modify, does_pure, does_ask]
      intro x
      cases x with
      | ok _ => simp [tacit, greets, offers]
      | error f => simp [tacit, greets, offers]
    · simp only [does_bind, does_newEngine]
      intro x
      cases x with
      | error f => simp +contextual [tacit, greets, offers]
      | ok e =>
        simp only [does_bind, does_modify, does_pure, does_inner, does_ask]
        intro y
        cases y with
        | ok _ => simp [tacit, greets, offers]
        | error f => simp [tacit, greets, offers]

/-- Nothing is written before the handshake is done. -/
theorem write_gate (data : Bytes) :
    Does b (Secure.write ops me data) l fun r _ _ => r = .ok () → l.phase = .established := by
  unfold Secure.write
  simp only [does_bind, does_get]
  split
  · simp
  · simp
  · simp
  · rename_i hp
    exact fun _ _ _ _ _ _ => hp

/-! ## Calls -/

/-- Whether a call begins an active open. -/
def Call.opens : Call H → Bool
  | ⟨_, .op (.connect _), .ok (), _, _⟩ => true
  | _ => false

/-- Whether plaintext is accepted for sending in a call. -/
def Call.accepts : Call H → Bool
  | ⟨_, .op (.write data _), .ok (), _, _⟩ => !data.isEmpty
  | _ => false

/-- In a call the handshake is taken on by what has come in, and the engine reports that it is done. -/
def Call.Finishes (ops : EngineOps H.Engine H.Shared) (b : Handle) (c : Call H) : Prop :=
  ∃ u rest, Tls.Finishes ops b c.before c.method.arrived u ∧ deeds c.trace = u ++ rest

/-- What a call does to the gate: it leaves it as it is; or it begins an active open; or the handshake is done. -/
theorem call_gate {m : Method} {r : m.Reply} {t : Trace H} (hy : (Secure.step ops me m l).Yields t (r, l'))
    (ho : Over b t) (hl : l.Sound) :
    Shut l (deeds t) l' ∨
      ((⟨l, m, r, t, l'⟩ : Call H).opens = true ∧ (∀ x ∈ deeds t, tacit x = true) ∧ l'.phase = l.phase) ∨
      Passes ops b l m.arrived (deeds t) l' := by
  have hshut : Shuts b (Secure.step ops me m) → Shut l (deeds t) l' := fun h => h l t r l' hy ho
  cases m with
  | op o =>
    cases o with
    | lower e =>
      rcases lower_gate hl e t r l' hy ho with h | h
      · exact .inl h
      · exact .inr (.inr h)
    | connect addr =>
      obtain ⟨htacit, hp, hc⟩ := connect_gate addr t r l' hy ho
      cases r with
      | ok _ => exact .inr (.inl ⟨rfl, htacit, hp⟩)
      | error f => exact .inl (.of_tacit htacit (fun _ => hp) fun h => by simpa using hc h)
    | recved n => exact .inl (hshut (recved_shuts n))
    | listen n => exact .inl (hshut (listen_shuts n))
    | abort => exact .inl (hshut abort_shuts)
    | close => exact .inl (hshut close_shuts)
    | shutdown dir =>
      cases dir with
      | read => exact .inl (hshut shutdownRead_shuts)
      | write => exact .inl (hshut shutdownWrite_shuts)
      | both => exact .inl (hshut close_shuts)
    | write data flags => exact .inl (hshut (write_shuts data))
    | output => exact .inl (hshut (Shuts.bind flush_shuts fun _ => shuts_pure _))
    | _ => exact .inl (hshut (below_shuts _ _))
  | settled v => exact .inl (hshut (settle_shuts v))
  | dealloc =>
    refine .inl (hshut (shuts_get fun l => ?_))
    split
    · refine Shuts.bind ?_ (fun _ => shuts_note _) l
      exact shuts_modify (fun _ _ => rfl) fun _ h => h
    · exact shuts_pure _ l

/-! ## Lives -/

/-- Something holds of each of some calls, and of those before it. -/
def Always (P : List (Call H) → Call H → Prop) (h : List (Call H)) : Prop :=
  ∀ past c future, h = past ++ c :: future → P past c

theorem Always.append {P : List (Call H) → Call H → Prop} {h : List (Call H)} {c : Call H} (hh : Always P h)
    (hc : P h c) : Always P (h ++ [c]) := by
  intro past c' future heq
  rcases List.eq_nil_or_concat future with rfl | ⟨future', x, rfl⟩
  · obtain ⟨rfl, hx⟩ := List.append_inj' heq rfl
    cases hx
    exact hc
  · rw [List.concat_eq_append, ← List.cons_append, ← List.append_assoc] at heq
    obtain ⟨rfl, -⟩ := List.append_inj' heq rfl
    exact hh past c' future' rfl

/-- What some calls do. -/
def deedsOf (h : List (Call H)) : Trace H := h.flatMap fun c => deeds c.trace

/-- Nothing passes the gate before the handshake is done. -/
structure Gated (ops : EngineOps H.Engine H.Shared) (b : Handle) (h : List (Call H)) : Prop where
  /-- The receiver is told once at most that the connection is there, -/
  once : (deedsOf h).countP greets ≤ 1
  /-- and not after plaintext was handed up; -/
  first : (deedsOf h).Pairwise fun x y => offers x = true → greets y = false
  /-- it has begun an active open before, and is told when the engine reports that the handshake is done. -/
  opened : Always (fun past c => ∀ x ∈ deeds c.trace, greets x = true →
    (∃ o ∈ past, o.opens = true) ∧ c.Finishes ops b) h
  /-- Plaintext is handed up, or accepted, when that was reported or later. -/
  ready : Always (fun past c => (∃ x ∈ deeds c.trace, offers x = true) ∨ c.accepts = true →
    ∃ e ∈ past ++ [c], e.Finishes ops b) h

/-- A layer behind the gate: what its calls have done, and how far it is. -/
structure Guarded (ops : EngineOps H.Engine H.Shared) (b : Handle) (h : List (Call H)) (l : Layer H.Source H.Engine) :
    Prop where
  sound : l.Sound
  gated : Gated ops b h
  early : l.phase = .handshaking →
    (∀ x ∈ deedsOf h, tacit x = true) ∧ (l.connecting = true → ∃ o ∈ h, o.opens = true)
  late : l.phase = .established → ∃ e ∈ h, e.Finishes ops b

variable {h : List (Call H)}

theorem deedsOf_append (h : List (Call H)) (c : Call H) : deedsOf (h ++ [c]) = deedsOf h ++ deeds c.trace := by
  simp [deedsOf]

theorem guarded_nil (hp : l₀.phase = .handshaking) (hc : l₀.connecting = false) (hs : l₀.Sound) :
    Guarded ops b [] l₀ := by
  refine ⟨hs, ⟨by simp [deedsOf], by simp [deedsOf], ?_, ?_⟩, fun _ => ⟨by simp [deedsOf], ?_⟩, ?_⟩
  · intro past c future heq
    simp at heq
  · intro past c future heq
    simp at heq
  · rw [hc]
    simp
  · rw [hp]
    simp

/-- What one of some calls did, it did also of these and one more. -/
theorem exists_earlier {P : Call H → Prop} (c : Call H) (hp : ∃ x ∈ h, P x) : ∃ x ∈ h ++ [c], P x := by
  obtain ⟨x, hx, hp⟩ := hp
  exact ⟨x, List.mem_append_left _ hx, hp⟩

/-- A call in which nobody is greeted keeps the gate. -/
theorem Gated.silent {c : Call H} (hg : Gated ops b h) (hsilent : ∀ x ∈ deeds c.trace, greets x = false)
    (hready : (∃ x ∈ deeds c.trace, offers x = true) ∨ c.accepts = true → ∃ e ∈ h ++ [c], e.Finishes ops b) :
    Gated ops b (h ++ [c]) := by
  have hnone : (deeds c.trace).countP greets = 0 := List.countP_eq_zero.2 fun x hx => by simp [hsilent x hx]
  refine ⟨?_, ?_, hg.opened.append fun x hx hgreet => ?_, hg.ready.append hready⟩
  · rw [deedsOf_append, List.countP_append, hnone]
    exact hg.once
  · rw [deedsOf_append]
    refine List.pairwise_append.2 ⟨hg.first, ?_, fun _ _ y hy _ => hsilent y hy⟩
    exact List.pairwise_of_forall_mem_list fun _ _ y hy _ => hsilent y hy
  · rw [hsilent x hx] at hgreet
    cases hgreet

/-- Plaintext is handed up, or accepted, by an established layer only. -/
theorem Guarded.ready {c : Call H} (hg : Guarded ops b h c.before)
    (hoffer : ∀ x ∈ deeds c.trace, offers x = true → c.before.phase = .established)
    (haccept : c.accepts = true → c.before.phase = .established)
    (hor : (∃ x ∈ deeds c.trace, offers x = true) ∨ c.accepts = true) : ∃ e ∈ h ++ [c], e.Finishes ops b := by
  have hest : c.before.phase = .established := by
    rcases hor with ⟨x, hx, hx'⟩ | hacc
    · exact hoffer x hx hx'
    · exact haccept hacc
  exact exists_earlier c (hg.late hest)

/-- A call that leaves the gate as it is. -/
theorem Guarded.shut {c : Call H} (hg : Guarded ops b h c.before) (hshut : Shut c.before (deeds c.trace) c.after)
    (haccept : c.accepts = true → c.before.phase = .established) (hs : c.after.Sound) :
    Guarded ops b (h ++ [c]) c.after := by
  refine ⟨hs, hg.gated.silent hshut.greets (hg.ready hshut.offers haccept), fun hp => ?_, fun hp => ?_⟩
  · have hbefore : c.before.phase = .handshaking := (hshut.phase (.inl hp)).symm.trans hp
    obtain ⟨htacit, hopen⟩ := hg.early hbefore
    rw [deedsOf_append]
    refine ⟨List.forall_mem_append.2 ⟨htacit, (hshut.early hbefore).1⟩, fun hc => ?_⟩
    exact exists_earlier c (hopen (hshut.connecting hc))
  · have hbefore : c.before.phase = .established := (hshut.phase (.inr hp)).symm.trans hp
    exact exists_earlier c (hg.late hbefore)

/-- A call that begins an active open. -/
theorem Guarded.opened {c : Call H} (hg : Guarded ops b h c.before) (hopens : c.opens = true)
    (htacit : ∀ x ∈ deeds c.trace, tacit x = true) (hphase : c.after.phase = c.before.phase)
    (haccept : c.accepts = true → c.before.phase = .established) (hs : c.after.Sound) :
    Guarded ops b (h ++ [c]) c.after := by
  have hsilent : ∀ x ∈ deeds c.trace, greets x = false := fun x hx => greets_of_tacit (htacit x hx)
  have hoffer : ∀ x ∈ deeds c.trace, offers x = true → c.before.phase = .established := fun x hx hx' => by
    rw [offers_of_tacit (htacit x hx)] at hx'
    cases hx'
  refine ⟨hs, hg.gated.silent hsilent (hg.ready hoffer haccept), fun hp => ?_, fun hp => ?_⟩
  · rw [deedsOf_append]
    have hearly := (hg.early (hphase.symm.trans hp)).1
    exact ⟨List.forall_mem_append.2 ⟨hearly, htacit⟩, fun _ => ⟨c, List.mem_append_right _ (.head _), hopens⟩⟩
  · exact exists_earlier c (hg.late (hphase.symm.trans hp))

/-- Of what is said first nothing greets and nothing is handed up; then somebody is greeted, once at most; then nobody is.
So nobody is greeted twice, nor after plaintext was handed up. -/
theorem greets_first {u g v : Trace H} (hu : ∀ x ∈ u, tacit x = true) (hg : g.countP greets ≤ 1)
    (ho : ∀ x ∈ g, offers x = false) (hv : ∀ x ∈ v, greets x = false) :
    (u ++ (g ++ v)).countP greets ≤ 1 ∧ (u ++ (g ++ v)).Pairwise fun x y => offers x = true → greets y = false := by
  have hu₀ : u.countP greets = 0 := List.countP_eq_zero.2 fun x hx => by simp [greets_of_tacit (hu x hx)]
  have hv₀ : v.countP greets = 0 := List.countP_eq_zero.2 fun x hx => by simp [hv x hx]
  have hquiet : ∀ x ∈ u ++ g, offers x = false :=
    List.forall_mem_append.2 ⟨fun x hx => offers_of_tacit (hu x hx), ho⟩
  refine ⟨?_, ?_⟩
  · rw [List.countP_append, List.countP_append, hu₀, hv₀]
    omega
  · rw [← List.append_assoc]
    refine List.pairwise_append.2 ⟨?_, ?_, fun _ _ y hy _ => hv y hy⟩
    · exact List.pairwise_of_forall_mem_list fun x hx _ _ ho => absurd ho (by simp [hquiet x hx])
    · exact List.pairwise_of_forall_mem_list fun _ _ y hy _ => hv y hy

/-- When the handshake is done, that is said before anything else, and nothing was said before. -/
theorem Guarded.passed {c : Call H} (hg : Guarded ops b h c.before)
    (hpass : Passes ops b c.before c.method.arrived (deeds c.trace) c.after) (hs : c.after.Sound) :
    Guarded ops b (h ++ [c]) c.after := by
  generalize hd : deeds c.trace = d at hpass
  cases hpass with
  | @intro u v d l₁ _ hu hv hp hc hshut =>
    generalize hgreet : (if c.before.connecting then [⟨.emit (.connected (.ok ())), ()⟩] else [] : Trace H) = g at hd
    have hfin : c.Finishes ops b := ⟨u, v ++ (g ++ d), hu, by rw [hd, List.append_assoc]⟩
    obtain ⟨hearly, hopens⟩ := hg.early hu.1
    obtain ⟨-, s, s', hsession, hdrive⟩ := hu
    have hbefore : ∀ x ∈ deedsOf h ++ (u ++ v), tacit x = true :=
      List.forall_mem_append.2 ⟨hearly, List.forall_mem_append.2 ⟨hdrive.tacit, hv⟩⟩
    -- somebody is greeted if an active open was begun, and once
    have hone : g.countP greets ≤ 1 ∧ ∀ x ∈ g, offers x = false := by
      rw [← hgreet]
      split <;> simp [greets, offers]
    have hwaits : g ≠ [] → c.before.connecting = true := by
      rw [← hgreet]
      split <;> simp_all
    obtain ⟨honce, hfirst⟩ := greets_first hbefore hone.1 hone.2 hshut.greets
    have hall : deedsOf (h ++ [c]) = (deedsOf h ++ (u ++ v)) ++ (g ++ d) := by
      rw [deedsOf_append, hd]
      simp only [List.append_assoc]
    refine ⟨hs, ⟨hall ▸ honce, hall ▸ hfirst, hg.gated.opened.append fun x hx hx' => ⟨?_, hfin⟩,
      hg.gated.ready.append fun _ => ⟨c, by simp, hfin⟩⟩, fun hphase => ?_, fun _ => ⟨c, by simp, hfin⟩⟩
    · rw [hd] at hx
      have hin : x ∈ g := by
        rcases List.mem_append.1 hx with hx | hx
        · have htacit := greets_of_tacit (hbefore x (List.mem_append_right _ hx))
          rw [htacit] at hx'
          cases hx'
        · rcases List.mem_append.1 hx with hx | hx
          · exact hx
          · rw [hshut.greets x hx] at hx'
            cases hx'
      exact hopens (hwaits (List.ne_nil_of_mem hin))
    · -- the handshake is not done twice
      have hlate := hshut.phase (.inl hphase)
      rw [hphase, hp] at hlate
      cases hlate

/-- What is accepted is accepted by an established layer. -/
theorem call_accepts {m : Method} {r : m.Reply} {t : Trace H} (hy : (Secure.step ops me m l).Yields t (r, l'))
    (ho : Over b t) (hacc : (⟨l, m, r, t, l'⟩ : Call H).accepts = true) : l.phase = .established := by
  cases m with
  | op o =>
    cases o with
    | write data flags =>
      cases r with
      | ok _ => exact write_gate data t _ l' hy ho rfl
      | error f => cases hacc
    | _ => cases hacc
  | _ => cases hacc

/-- **Nothing passes the gate before the handshake is done.** Whatever a new layer is called with, in any order and with
any answers: the receiver is told once at most that the connection is there, when it has begun an active open and the
engine reports that the handshake is done, and before any plaintext; and until then no plaintext is handed up and none is
accepted. -/
theorem Life.guarded (hl : Life ops b me l₀ h l) (hp : l₀.phase = .handshaking) (hc : l₀.connecting = false)
    (hs : l₀.Sound) : Guarded ops b h l := by
  induction hl with
  | start => exact guarded_nil hp hc hs
  | @call h l l' m r t hl hfree hy ho ih =>
    let c : Call H := ⟨l, m, r, t, l'⟩
    have hs' : l'.Sound := Call.sound hy ho ih.sound
    have haccept : c.accepts = true → l.phase = .established := call_accepts hy ho
    rcases call_gate hy ho ih.sound with hshut | ⟨hopens, htacit, hphase⟩ | hpass
    · exact Guarded.shut (c := c) ih hshut haccept hs'
    · exact Guarded.opened (c := c) ih hopens htacit hphase haccept hs'
    · exact Guarded.passed (c := c) ih hpass hs'

end Tls

end Conduit
