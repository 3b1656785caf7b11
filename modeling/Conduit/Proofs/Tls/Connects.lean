import Conduit.Proofs.Tls.Lifetime

/-!
# What becomes of an active open

* `Tries`: what a TLS layer does when it is asked to connect, whatever it is answered.
* `connect_tries`: **it does nothing else.**
* `Call.Completes`: the handshake is done in a call.
* `Life.waits`: an active open goes on until the handshake ends, or it is answered, or another one is refused.
* `Past.connects`: **what a connect that fails leaves behind**, and what becomes of one that does not.
-/

namespace Conduit

open Layer Layer.Act

/-! ## Whole runs -/

/-- Of two runs of a program neither goes on where the other one ends. -/
theorem Program.Yields.unique {I : Interface} {α : Type} {p : Program I α} {t t' u u' : List (Exchange I)} {a a' : α}
    (h : p.Yields t a) (h' : p.Yields t' a') (heq : t ++ u = t' ++ u') : t' = t ∧ a' = a ∧ u' = u := by
  induction h generalizing t' with
  | done a =>
    cases h'
    exact ⟨rfl, rfl, heq.symm⟩
  | ask h ih =>
    cases h' with
    | ask h' =>
      simp only [List.cons_append, List.cons.injEq, Exchange.mk.injEq, heq_eq_eq, true_and] at heq
      obtain ⟨rfl, heq⟩ := heq
      obtain ⟨rfl, rfl, rfl⟩ := ih h' heq
      exact ⟨rfl, rfl, rfl⟩

/-- A run in which every answer is fixed beforehand is the one that is played. -/
theorem Program.Yields.eq_play {I : Interface} {α : Type} {answer : (r : I.Req) → I.Ans r} {p : Program I α}
    {t : List (Exchange I)} {a : α} (h : p.Yields t a) (ht : ∀ x ∈ t, x.ans = answer x.req) :
    p.play answer = (t, a) := by
  induction h with
  | done a => rfl
  | @ask r next x t a h ih =>
    have hx : x = answer r := ht ⟨r, x⟩ List.mem_cons_self
    subst hx
    rw [Program.play, ih fun y hy => ht y (List.mem_cons_of_mem _ hy)]

variable {H : Host}

namespace Layer.Act

variable {σ α β : Type} {s : σ}

/-- Every run of `p` from `s` ends as `post` says of its result, of all that was asked, and of the state it leaves. -/
def Ends (p : Act H σ α) (s : σ) (post : α → Trace H → σ → Prop) : Prop :=
  ∀ t a s', (p s).Yields t (a, s') → post a t s'

@[simp] theorem ends_pure (a : α) {post : α → Trace H → σ → Prop} : Ends (pure a : Act H σ α) s post ↔ post a [] s := by
  constructor
  · intro h
    exact h [] a s (.done _)
  · rintro h t c s' ⟨⟩
    exact h

@[simp] theorem ends_bind (p : Act H σ α) (f : α → Act H σ β) {post : β → Trace H → σ → Prop} :
    Ends (p >>= f) s post ↔ Ends p s fun a t s' => Ends (f a) s' fun c u s'' => post c (t ++ u) s'' := by
  constructor
  · intro h t a s' ht u c s'' hu
    exact h (t ++ u) c s'' (ht.bind hu)
  · intro h w c s'' hw
    obtain ⟨t, u, ⟨a, s'⟩, rfl, ht, hu⟩ := hw.of_bind
    exact h t a s' ht u c s'' hu

@[simp] theorem ends_get {post : σ → Trace H → σ → Prop} : Ends (get : Act H σ σ) s post ↔ post s [] s :=
  ends_pure (H := H) (σ := σ) s

@[simp] theorem ends_modify (f : σ → σ) {post : PUnit → Trace H → σ → Prop} :
    Ends (modify f : Act H σ PUnit) s post ↔ post ⟨⟩ [] (f s) := by
  constructor
  · intro h
    exact h [] _ _ (.done _)
  · rintro h t c _ ⟨⟩
    exact h

theorem ends_request (r : Req H) {post : r.Ans → Trace H → σ → Prop} :
    Ends (α := no_index r.Ans) (request r) s post ↔ ∀ x, post x [⟨r, x⟩] s := by
  constructor
  · intro h x
    exact h _ x s (.ask (.done (x, s)))
  · intro h t x s' ht
    cases ht with
    | ask ht =>
      cases ht
      exact h _

end Layer.Act

namespace Tls

variable {ops : EngineOps H.Engine H.Shared} {b me : Handle} {l₀ l l₁ l' : Layer H.Source H.Engine} {h : List (Call H)}
  {s s' : Session H.Engine}

/-! ## What a connect does -/

/-- The layer with the engine that was made for a connect to `a`, if one was made. -/
def Layer.readied {S E : Type} (l : Layer S E) (a : Endpoint) : Option E → Layer S E
  | none => l
  | some e => { l with session := some (.ofEngine e), serverName := some a.ip.text }

/-- A client that has no session gets one, for the address that it is asked to connect to. -/
inductive Readies (l : Layer H.Source H.Engine) (a : Endpoint) : Option H.Engine → Trace H → Prop
  | had (hs : l.session ≠ none) : Readies l a none []
  | made {e : H.Engine} (hs : l.session = none) :
      Readies l a (some e) [⟨.newEngine l.config (some (.ip a.ip)), .ok e⟩]

/-- What a layer does when it is asked to connect to `a`. -/
inductive Tries (l : Layer H.Source H.Engine) (a : Endpoint) : Outcome → Trace H → Layer H.Source H.Engine → Prop
  | server {f : Fault} (hc : l.config.isServer = true) : Tries l a (.error f) [] l
  | unmade {f : Fault} (hs : l.session = none) :
      Tries l a (.error f) [⟨.newEngine l.config (some (.ip a.ip)), .error f⟩] l
  | missing {f : Fault} {e : Option H.Engine} {u : Trace H} (hr : Readies l a e u) :
      Tries l a (.error f) (u ++ [⟨.inner, none⟩]) (l.readied a e)
  | refused {f : Fault} {e : Option H.Engine} {u : Trace H} {id : Handle} (hr : Readies l a e u) :
      Tries l a (.error f) (u ++ [⟨.inner, some id⟩, ⟨.ask id (.connect a), .error f⟩])
        { l.readied a e with connecting := false }
  | opened {e : Option H.Engine} {u : Trace H} {id : Handle} (hr : Readies l a e u) :
      Tries l a (.ok ()) (u ++ [⟨.inner, some id⟩, ⟨.ask id (.connect a), .ok ()⟩])
        { l.readied a e with connecting := true }

theorem connectBelow_tries {a : Endpoint} {e : Option H.Engine} {u : Trace H} (hr : Readies l a e u) :
    Ends (Secure.connectBelow a) (l.readied a e) fun r t l' => Tries l a r (u ++ t) l' := by
  unfold Secure.connectBelow
  rw [ends_bind]
  refine (ends_request .inner).2 fun x => ?_
  cases x with
  | none => exact (ends_pure _).2 (.missing hr)
  | some id =>
    dsimp only
    rw [ends_bind, ends_modify, ends_bind]
    refine (ends_request (.ask id (.connect a))).2 fun y => ?_
    cases y with
    | ok _ => exact (ends_pure _).2 (.opened hr)
    | error f =>
      simp only [ends_bind, ends_modify, ends_pure]
      exact .refused hr

/-- **A connect does nothing else**, whatever it is answered, and whether or not there is a connection below. -/
theorem connect_tries (a : Endpoint) : Ends (Secure.connect a) l fun r t l' => Tries l a r t l' := by
  unfold Secure.connect
  simp only [ends_bind, ends_get]
  split
  · rename_i hc
    exact (ends_pure _).2 (.server hc)
  · split
    · rename_i s hs
      rw [ends_bind, ends_pure]
      exact connectBelow_tries (.had (by simp [hs]))
    · rename_i hs
      simp only [ends_bind]
      refine (ends_request (.newEngine l.config (some (.ip a.ip)))).2 fun x => ?_
      cases x with
      | error f => simpa using Tries.unmade hs
      | ok e =>
        dsimp only
        rw [ends_bind, ends_modify, ends_bind, ends_pure]
        exact connectBelow_tries (.made hs)

/-- The engine that is made in a run, if one is made. -/
def made? (t : Trace H) : Option H.Engine := t.findSome? fun
  | ⟨.newEngine _ _, .ok e⟩ => some e
  | _ => none

/-- Whether a connect is refused below. -/
def spurns : Exchange (io H) → Bool
  | ⟨.ask _ (.connect _), .error _⟩ => true
  | _ => false

/-- **A connect that fails** leaves the layer as it was, but for an engine that was made for it, and for an active open
that was waiting when the connection below refused. -/
theorem Tries.failed {a : Endpoint} {f : Fault} {t : Trace H} (h : Tries l a (.error f) t l') :
    l' = { l.readied a (made? t) with connecting := l.connecting && !t.any spurns } ∧
      (made? t ≠ none → l.session = none) := by
  cases h with
  | server => simp [made?, Layer.readied]
  | unmade hs => simp [made?, spurns, Layer.readied]
  | missing hr => cases hr <;> simp_all [made?, spurns, Layer.readied]
  | refused hr => cases hr <;> simp_all [made?, spurns, Layer.readied]

/-- A connect that succeeds has had an engine made if there was no session. -/
theorem Tries.succeeded {a : Endpoint} {t : Trace H} (h : Tries l a (.ok ()) t l') :
    l' = { l.readied a (made? t) with connecting := true } ∧
      (l.session = none → ∃ e, made? t = some e ∧ ⟨.newEngine l.config (some (.ip a.ip)), .ok e⟩ ∈ t) := by
  cases h with
  | opened hr => cases hr <;> simp_all [made?, Layer.readied]

theorem Tries.session {a : Endpoint} {r : Outcome} {t : Trace H} (h : Tries l a r t l') (hs : l.session = none)
    (ht : made? t = none) : l'.session = none := by
  cases r with
  | ok _ =>
    obtain ⟨e, he, -⟩ := h.succeeded.2 hs
    rw [ht] at he
    cases he
  | error f =>
    rw [h.failed.1, ht]
    exact hs

/-! ## Calls -/

/-- Where a call connects to, and how it is answered, if it is a connect. -/
def Call.connect? : Call H → Option (Endpoint × Outcome)
  | ⟨_, .op (.connect a), r, _, _⟩ => some (a, r)
  | _ => none

theorem Call.tries {c : Call H} {a : Endpoint} {r : Outcome}
    (hy : (Secure.step ops me c.method c.before).Yields c.trace (c.reply, c.after)) (hc : c.connect? = some (a, r)) :
    Tries c.before a r c.trace c.after := by
  unfold Call.connect? at hc
  split at hc
  · cases hc
    exact connect_tries _ _ _ _ hy
  · cases hc

theorem Call.connect?_of_opens {c : Call H} (h : c.opens = true) : ∃ a, c.connect? = some (a, .ok ()) := by
  unfold Call.opens at h
  split at h
  · exact ⟨_, rfl⟩
  · cases h

/-- A connect is refused below, or the connection below could not be opened. -/
def Call.cancels (c : Call H) : Bool :=
  match c.method with
  | .op (.lower (.connected (.error _))) => true
  | .op (.connect _) => c.trace.any spurns
  | _ => false

/-- The handshake is done in a call: ciphertext arrives, or the connection below is there, and the engine reports it. -/
inductive Call.Completes (ops : EngineOps H.Engine H.Shared) : Call H → Prop
  | received {l l₁ l' : Layer H.Source H.Engine} {s s' : Session H.Engine} {data : Bytes} {r : Outcome}
      {t u : Trace H} (hp : l.phase = .handshaking) (hs : l.session = some s)
      (hr : l.rxState ≠ .closed)
      (hd : (({ s with rx := s.rx.push data } : Session H.Engine).drive (ops.handshake s.engine)
        (l.holding { s with rx := s.rx.push data })).Yields t ((s', .ok .done), l₁)) :
      Completes ops ⟨l, .op (.lower (.recv data)), r, t ++ u, l'⟩
  | connected {l l₁ l' : Layer H.Source H.Engine} {s s' : Session H.Engine} {r : Outcome} {n : Note} {t u : Trace H}
      (hp : l.phase = .handshaking) (hs : l.session = some s)
      (hd : (s.drive (ops.handshake s.engine) l).Yields t ((s', .ok .done), l₁)) :
      Completes ops ⟨l, .op (.lower (.connected (.ok ()))), r, ⟨.note n, ()⟩ :: (t ++ u), l'⟩

/-! ## An active open that waits -/

/-- Driving an engine leaves the layer as it is. -/
theorem drive_ends {α : Type} (s : Session H.Engine) (p : EngineAct H.Shared (H.Engine × α)) :
    Ends (s.drive p) l fun _ _ l' => l' = l := by
  intro t a l' ht
  obtain ⟨t₁, t₂, r, -, -, hw⟩ := ht.of_bind
  cases hw
  rfl

/-- When the engine reports in the run `t` that the handshake is done, whoever waits for it is told. -/
theorem receive_greets {t : Trace H} (hp : l.phase = .handshaking) (hs : l.session = some s) (hc : l.connecting = true)
    (hd : (s.drive (ops.handshake s.engine) l).Yields t ((s', .ok .done), l₁)) :
    Ends (Secure.receive ops me) l fun _ w _ => ∀ u, w = t ++ u → Over b w → ∃ x ∈ deeds w, greets x = true := by
  unfold Secure.receive
  simp only [ends_bind, ends_get, List.nil_append]
  rw [if_pos hp, hs]
  dsimp only
  rw [ends_bind]
  rintro t₁ ⟨s₁, progress⟩ l₂ ht v x l' hv u heq ho
  obtain ⟨rfl, hres, rfl⟩ := hd.unique ht heq.symm
  cases hres
  obtain rfl := drive_ends _ _ _ _ _ ht
  have htold : Does b (do
      Secure.setSession { s' with bytesRead := 0 }
      Secure.outputLower me
      Secure.ackLower s'.bytesRead
      Secure.establish ops me
      Secure.deliver ops me) l₁ fun _ d _ => ∃ x ∈ d, greets x = true := by
    simp only [does_bind, does_setSession]
    refine outputLower_does fun y => ackLower_does fun v _ => establish_greets fun l' _ _ => ?_
    rintro w z l'' - -
    refine ⟨⟨.emit (.connected (.ok ())), ()⟩, ?_, rfl⟩
    simp [Layer.holding, hc]
  rw [over_append] at ho
  obtain ⟨y, hy, hgreet⟩ := htold v x l' hv ho.2
  exact ⟨y, by simp [hy], hgreet⟩

/-- Whoever waits for the handshake is told in the call in which it is done. -/
theorem Call.Completes.greets {c : Call H} (h : c.Completes ops)
    (hy : (Secure.step ops me c.method c.before).Yields c.trace (c.reply, c.after)) (hb : Over b c.trace)
    (hc : c.before.connecting = true) : ∃ x ∈ deeds c.trace, Tls.greets x = true := by
  cases h with
  | @received l l₁ l' s s' data r t u hp hs hr hd =>
    have hends : Ends (Secure.lower ops me (.recv data)) l fun _ w _ =>
        ∀ u, w = t ++ u → Over b w → ∃ x ∈ deeds w, Tls.greets x = true := by
      unfold Secure.lower
      simp only [ends_bind, ends_pure, List.append_nil]
      unfold Secure.lowerData
      simp only [ends_bind, ends_get, List.nil_append, hs]
      rw [if_pos hr, ends_bind, Secure.setSession, ends_modify]
      exact receive_greets (l := l.holding { s with rx := s.rx.push data }) hp rfl hc hd
    exact hends _ _ _ hy u rfl hb
  | @connected l l₁ l' s s' r n t u hp hs hd =>
    have hends : Ends (Secure.lower ops me (.connected (.ok ()))) l fun _ w _ =>
        ∀ n u, w = ⟨.note n, ()⟩ :: (t ++ u) → Over b w → ∃ x ∈ deeds w, Tls.greets x = true := by
      unfold Secure.lower
      rw [ends_bind]
      refine (ends_request (.note _)).2 fun _ => ?_
      simp only [ends_bind, ends_pure, List.append_nil]
      intro w x l' hw n u heq hb
      have hover : Over b w := fun x hx => hb x (List.mem_cons_of_mem _ hx)
      obtain ⟨y, hy, hgreet⟩ := receive_greets hp hs hc hd w x l' hw u (List.cons.inj heq).2 hover
      exact ⟨y, by simpa [deeds, isDeed] using hy, hgreet⟩
    exact hends _ _ _ hy n u rfl hb

namespace Shape

variable {s s' : Shape}

/-- What works before the handshake ends it. -/
theorem Step.phase_ne (h : Step s s') : s'.phase ≠ .handshaking := by
  cases h with
  | established | broken => simp
  | queued hp | ended hp => simp [Shape.ended, hp]

theorem Steps.eq_of_handshaking (h : Steps s s') (hp : s'.phase = .handshaking) : s' = s := by
  cases h with
  | refl => rfl
  | tail _ h => exact absurd hp h.phase_ne

/-- As long as the handshake goes on, only connects and their answers change whether an active open waits. -/
theorem Turn.waits {m : Method} {r : m.Reply} {flag : Bool} (h : Turn m r s flag s') (hp : s'.phase = .handshaking) :
    s.phase = .handshaking ∧ (s'.connecting = s.connecting ∨ (∃ f, m = .op (.lower (.connected (.error f)))) ∨
      ∃ a, m = .op (.connect a)) := by
  cases h with
  | worked _ _ h =>
    have heq := h.eq_of_handshaking hp
    rw [heq] at hp ⊢
    exact ⟨hp, .inl rfl⟩
  | unanswered => exact ⟨hp, .inr (.inl ⟨_, rfl⟩)⟩
  | listened => cases hp
  | lost | dropped | closed | kept | silenced | deafened => exact ⟨hp, .inl rfl⟩
  | opened | unopened | baseless | spurned => exact ⟨hp, .inr (.inr ⟨_, rfl⟩)⟩

end Shape

/-- **An active open waits** until the handshake ends, unless a connect is refused below. -/
theorem Past.waits (hl : Past ops me l₀ h l) (hc : l₀.connecting = true) (hp : l.phase = .handshaking)
    (hn : ∀ c ∈ h, c.cancels = false) : l.connecting = true := by
  induction hl with
  | start => exact hc
  | @call h l l' m r t hl hf hy ih =>
    rw [List.forall_mem_append] at hn
    have hcancels : (⟨l, m, r, t, l'⟩ : Call H).cancels = false := hn.2 _ (List.mem_singleton.2 rfl)
    obtain ⟨hp, hwaits⟩ := (Call.turn hy).waits hp
    have hwait := ih hp hn.1
    rcases hwaits with heq | ⟨f, rfl⟩ | ⟨a, rfl⟩
    · exact heq.trans hwait
    · cases hcancels
    · have htries : Tries l a r t l' := connect_tries _ _ _ _ hy
      cases r with
      | ok _ => rw [htries.succeeded.1]
      | error f =>
        rw [htries.failed.1, hwait, show t.any spurns = false from hcancels]
        rfl

/-- A client without a session has none until an engine is made. -/
theorem Past.session_none (hl : Past ops me l₀ h l) (h₀ : l₀.session = none) (hn : ∀ c ∈ h, made? c.trace = none) :
    l.session = none := by
  induction hl with
  | start => exact h₀
  | @call h l l' m r t hl hf hy ih =>
    rw [List.forall_mem_append] at hn
    have hnone := ih hn.1
    rcases Call.comes hy hnone with hs | hbegins
    · exact hs
    · unfold Call.begins at hbegins
      split at hbegins
      · rename_i a hm
        obtain rfl : m = .op (.connect a) := hm
        exact Tries.session (connect_tries _ _ _ _ hy) hnone (hn.2 ⟨l, _, r, t, l'⟩ (List.mem_singleton.2 rfl))
      · cases hbegins

/-- **What becomes of a connect.** Whatever a new layer is called with, whatever is below it and whatever that answers:

* When a connect fails, the layer is as before, but for two things. A client without a session keeps the engine that was
  made for the address, and the address as its name. And an active open that waits is given up when the connection below
  refuses.
* When a connect succeeds and no engine was made before, for a client that has been told no name, the address is its name.
* An active open learns exactly once that the connection is there, when the handshake is done, unless a connect is refused
  below until then, or the connection below could not be opened. -/
theorem Past.connects (hl : Past ops me l₀ h l) (h₀ : l₀.Blank) :
    (∀ c ∈ h, ∀ a f, c.connect? = some (a, .error f) →
      c.after = { c.before.readied a (made? c.trace) with
        connecting := c.before.connecting && !c.trace.any spurns } ∧
      (made? c.trace ≠ none → c.before.session = none)) ∧
    (l₀.session = none → ∀ past c future a, h = past ++ c :: future → c.connect? = some (a, .ok ()) →
      (∀ d ∈ past, made? d.trace = none) → c.after.serverName = some a.ip.text ∧
        ∃ e, c.after.session = some (.ofEngine e) ∧ ⟨.newEngine c.before.config (some (.ip a.ip)), .ok e⟩ ∈ c.trace) ∧
    ∀ b, (∀ c ∈ h, Over b c.trace) → ∀ past o between c future, h = past ++ o :: (between ++ c :: future) →
      o.opens = true → (∀ d ∈ between, d.cancels = false) → c.Completes ops →
        (∃ x ∈ deeds c.trace, greets x = true) ∧ (deedsOf h).countP greets = 1 := by
  refine ⟨fun c hc a f hconnect => ?_, fun hnone past c future a heq hconnect hnever => ?_,
    fun b hb past o between c future heq hopens hwaits hdone => ?_⟩
  · obtain ⟨past, future, rfl⟩ := List.append_of_mem hc
    exact (Call.tries hl.amid.2.1 hconnect).failed
  · subst heq
    obtain ⟨hbefore, hy, -⟩ := hl.amid
    obtain ⟨hafter, hmade⟩ := (Call.tries hy hconnect).succeeded
    obtain ⟨e, he, hmem⟩ := hmade (hbefore.session_none hnone hnever)
    rw [hafter, he]
    exact ⟨rfl, e, rfl, hmem⟩
  · subst heq
    obtain ⟨-, hy, hafter⟩ := hl.amid
    obtain ⟨hbetween, hyc, -⟩ := hafter.amid
    have hbegun : o.after.connecting = true := by
      obtain ⟨a, hconnect⟩ := Call.connect?_of_opens hopens
      rw [(Call.tries hy hconnect).succeeded.1]
    have hp : c.before.phase = .handshaking := by cases hdone <;> assumption
    have hgreet := hdone.greets hyc (hb c (by simp)) (hbetween.waits hbegun hp hwaits)
    have hguarded := (hl.life hb).guarded h₀.phase h₀.connecting h₀.sound
    refine ⟨hgreet, Nat.le_antisymm hguarded.gated.once ?_⟩
    obtain ⟨x, hx, hgreets⟩ := hgreet
    refine List.countP_pos_iff.2 ⟨x, ?_, hgreets⟩
    simp [deedsOf, hx]

/-! ## Toy clients that connect -/

/-- The handshake is done in a call that is played, when the engine reports it when it is played. -/
theorem Call.completes_of_play {answer : (r : Req H) → r.Ans} {data : Bytes} (hp : l.phase = .handshaking)
    (hs : l.session = some s) (hr : l.rxState ≠ .closed)
    (hd : (Program.play (I := io H) answer (({ s with rx := s.rx.push data } : Session H.Engine).drive
      (ops.handshake s.engine) (l.holding { s with rx := s.rx.push data }))).2.1.2.toOption = some .done) :
    ∀ c ∈ (played ops me answer [.op (.lower (.recv data))] l).1, c.Completes ops := by
  have hends : Ends (Secure.lower ops me (.recv data)) l fun _ w _ => (∀ x ∈ w, x.ans = answer x.req) →
      ∃ t u s' l₁, w = t ++ u ∧ (({ s with rx := s.rx.push data } : Session H.Engine).drive (ops.handshake s.engine)
        (l.holding { s with rx := s.rx.push data })).Yields t ((s', .ok .done), l₁) := by
    unfold Secure.lower
    simp only [ends_bind, ends_pure, List.append_nil]
    unfold Secure.lowerData
    simp only [ends_bind, ends_get, List.nil_append, hs]
    rw [if_pos hr, ends_bind, Secure.setSession, ends_modify]
    unfold Secure.receive
    simp only [ends_bind, ends_get, List.nil_append]
    rw [if_pos hp, ends_bind]
    rintro t ⟨s', progress⟩ l₁ ht u x l' - hall
    have hplay := ht.eq_play fun y hy => hall y (List.mem_append_left _ hy)
    have hprogress : progress.toOption = some .done := (congrArg (·.2.1.2.toOption) hplay).symm.trans hd
    cases progress with
    | error f => cases hprogress
    | ok p =>
      cases hprogress
      exact ⟨t, u, s', l₁, rfl, ht⟩
  intro c hc
  simp only [played, List.mem_singleton] at hc
  have hy := Program.play_yields (I := io H) answer (Secure.step ops me (.op (.lower (.recv data))) l)
  have hall : ∀ x ∈ (Program.play (I := io H) answer (Secure.step ops me (.op (.lower (.recv data))) l)).1,
      x.ans = answer x.req := fun _ => Program.mem_play
  generalize Program.play (I := io H) answer (Secure.step ops me (.op (.lower (.recv data))) l) = run at *
  obtain ⟨w, r, l'⟩ := run
  obtain ⟨t, u, s', l₁, rfl, hyields⟩ := hends w r l' hy hall
  rw [hc]
  exact .received hp hs hr hyields

/-- Two addresses to connect to. -/
def Toy.first : Endpoint := ⟨.v4 127 0 0 1, 80, 0⟩

def Toy.second : Endpoint := ⟨.v4 127 0 0 2, 80, 0⟩

/-- Every request of a layer succeeds, but there are no engines. -/
def Toy.barren : (r : Layer.Req Toy.host) → r.Ans
  | .newEngine _ _ => .error .outOfMemory
  | r => Toy.obliging r

/-- A client connects when there are no engines, and then to another address. -/
def Toy.persistent : List (((r : Layer.Req Toy.host) → r.Ans) × List Method) :=
  [(Toy.barren, [.op (.connect Toy.first)]), (Toy.obliging, [.op (.connect Toy.second)])]

/-- The client then. -/
def Toy.waiting : Layer Toy.Profile Toy.Engine := (Toy.staged Toy.persistent Toy.nameless).2

theorem Toy.waiting_session : Toy.waiting.session.isSome = true := by decide +kernel

theorem Past.connects_persistent : ∃ f o c l,
    Past (H := Toy.host) (Toy.ops (V := Unit)) Toy.me Toy.nameless [f, o, c] l ∧
      f.connect? = some (Toy.first, .error .outOfMemory) ∧ f.after = f.before ∧
      o.after.serverName = some Toy.second.ip.text ∧ (deedsOf [f, o, c]).countP greets = 1 := by
  have hlife := Toy.staged_life Toy.persistent Toy.nameless (by decide +kernel) (by decide +kernel)
  -- the handshake is done when one record has arrived
  have hdone : ∀ c ∈ (played (H := Toy.host) (Toy.ops (V := Unit)) Toy.me Toy.obliging
      [.op (.lower (.recv (Toy.letters 's' 1)))] Toy.waiting).1, c.Completes (Toy.ops (V := Unit)) :=
    Call.completes_of_play (s := Toy.waiting.session.get Toy.waiting_session) (by decide +kernel) (Option.some_get _).symm
      (by decide +kernel) (by decide +kernel)
  have hall : Life (H := Toy.host) (Toy.ops (V := Unit)) Toy.below Toy.me Toy.nameless
      ((Toy.staged Toy.persistent Toy.nameless).1 ++ (played (Toy.ops (V := Unit)) Toy.me Toy.obliging
        [.op (.lower (.recv (Toy.letters 's' 1)))] Toy.waiting).1) (played (H := Toy.host) (Toy.ops (V := Unit)) Toy.me
        Toy.obliging [.op (.lower (.recv (Toy.letters 's' 1)))] Toy.waiting).2 :=
    Life.of_played rfl hlife (by decide +kernel) (by decide +kernel)
  have hseen : (Toy.staged Toy.persistent Toy.nameless).1.map (fun c =>
      (c.connect?, c.opens, (made? c.trace).isNone, c.trace.any spurns)) =
    [(some (Toy.first, .error .outOfMemory), false, true, false), (some (Toy.second, .ok ()), true, false, false)] := by
    decide +kernel
  generalize Toy.staged Toy.persistent Toy.nameless = r at *
  obtain ⟨c, hc⟩ : ∃ c, (played (H := Toy.host) (Toy.ops (V := Unit)) Toy.me Toy.obliging
      [.op (.lower (.recv (Toy.letters 's' 1)))] Toy.waiting).1 = [c] := ⟨_, rfl⟩
  simp only [List.map_eq_cons_iff, List.map_eq_nil_iff] at hseen
  obtain ⟨f, _, hr, hf, o, _, rfl, ho, rfl⟩ := hseen
  simp only [Prod.mk.injEq, Option.isNone_iff_eq_none] at hf ho
  rw [hr, hc] at hall
  have hpast := hall.past
  obtain ⟨hfails, hnames, hgreets⟩ := Past.connects hpast Toy.nameless_blank
  refine ⟨f, o, c, _, hpast, hf.1, ?_, ?_, ?_⟩
  · rw [(hfails f (by simp) _ _ hf.1).1, hf.2.2.1, hf.2.2.2]
    simp [Layer.readied]
  · exact (hnames rfl [f] o [c] _ rfl ho.1 (by simp [hf.2.2.1])).1
  · refine (hgreets Toy.below (fun d hd => ?_) [f] o [] c [] rfl ho.2.1 (by simp) (hdone c (by simp [hc]))).2
    obtain ⟨past, future, heq⟩ := List.append_of_mem hd
    exact (heq ▸ hall : Life _ _ _ _ (past ++ d :: future) _).amid.around

/-- Every request of a layer succeeds, but the connection below does not connect. -/
def Toy.unwilling : (r : Layer.Req Toy.host) → r.Ans
  | .ask _ (.connect _) => (.error .invalidArgument : Outcome)
  | r => Toy.obliging r

/-- A client connects, and connects again when the connection below refuses. Then the handshake is done. -/
def Toy.impatient : List (((r : Layer.Req Toy.host) → r.Ans) × List Method) :=
  [(Toy.obliging, [.op (.connect Toy.first)]), (Toy.unwilling, [.op (.connect Toy.second)]),
    (Toy.obliging, [.op (.lower (.recv (Toy.letters 's' 1)))])]

/-- A client is refused, and connects to another address. -/
def Toy.rerouted : List (((r : Layer.Req Toy.host) → r.Ans) × List Method) :=
  [(Toy.unwilling, [.op (.connect Toy.first)]), (Toy.obliging, [.op (.connect Toy.second)])]

/-- After a connect that is refused, nobody is told that the first one has come about; and a client keeps the name of the
address that refused it. -/
theorem Past.connects_spoilt :
    Past (H := Toy.host) (Toy.ops (V := Unit)) Toy.me Toy.client (Toy.staged Toy.impatient Toy.client).1
      (Toy.staged Toy.impatient Toy.client).2 ∧
    (Toy.staged Toy.impatient Toy.client).1.map (fun c =>
      (c.connect?, c.before.connecting, c.after.phase, (deeds c.trace).countP greets)) =
        [(some (Toy.first, .ok ()), false, .handshaking, 0),
          (some (Toy.second, .error .invalidArgument), true, .handshaking, 0), (none, false, .established, 0)] ∧
    Past (H := Toy.host) (Toy.ops (V := Unit)) Toy.me Toy.nameless (Toy.staged Toy.rerouted Toy.nameless).1
      (Toy.staged Toy.rerouted Toy.nameless).2 ∧
    (Toy.staged Toy.rerouted Toy.nameless).1.map (fun c => (c.connect?, c.after.session.isSome, c.after.serverName)) =
        [(some (Toy.first, .error .invalidArgument), true, some Toy.first.ip.text),
          (some (Toy.second, .ok ()), true, some Toy.first.ip.text)] :=
  ⟨(Toy.staged_life _ _ (by decide +kernel) (by decide +kernel)).past, by decide +kernel,
    (Toy.staged_life _ _ (by decide +kernel) (by decide +kernel)).past, by decide +kernel⟩

end Tls

end Conduit
