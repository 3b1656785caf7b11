import Conduit.Proofs.Tls.Refusals
import Conduit.Proofs.Tls.Writes

/-!
# What is sent by the end

When a connection is closed, or its write half is, the notice that no more will come is put behind all that was written.
What the engine has still not been able to send when the connection below is asked for its end stays where it is: closing
drops it with the session.

* `Scribes`: engines that send what they are given, and nothing else that carries plaintext.
* `Utters`: the plaintext that is put behind what was to be sent, from one state of a layer to another.
* `write_utters`, `call_utters`, `Life.utters`: it is what the writes brought that were accepted.
* `Departing`: the calls that end what is sent, and what the engine has not sent by then.
* `Life.departs`: **what was sent, and what is left, is what was written and the notice.**
-/

namespace Conduit

open Layer Layer.Act Secure

/-- Whether a method writes. -/
def Method.writes : Method → Bool
  | .op (.write _ _) => true
  | _ => false

namespace Tls

/-- Engines that send what they are given: `out e` is the ciphertext that `e` has ready, `carries y p` says that `p` is
the plaintext in the ciphertext `y`, and `notice y` that `y` says that no more will come. What is ready is sent in its
order, and sending fails only with a push. What is put behind it is what the engine was given to encrypt, as a whole or
not at all; the notice, when it is asked for; and nothing else that carries plaintext. -/
structure Scribes {E V : Type} (ops : EngineOps E V) (good : E → Prop) (out : E → Bytes)
    (carries : Bytes → Bytes → Prop) (notice : Bytes → Prop) : Prop where
  nil : carries [] []
  append : ∀ {x y p q : Bytes}, carries x p → carries y q → carries (x ++ y) (p ++ q)
  handshake : ∀ {e e' : E} {c c' : Bytes} {ps : List Push} {x : Progress}, good e →
    Works (ops.handshake e) c ps c' (e', .ok x) → good e' ∧ ∃ y, carries y [] ∧ out e ++ y = sent ps ++ out e'
  decrypt : ∀ {e e' : E} {n : Nat} {c c' : Bytes} {ps : List Push} {x : Decrypted}, good e →
    Works (ops.decrypt e n) c ps c' (e', .ok x) → good e' ∧ ∃ y, carries y [] ∧ out e ++ y = sent ps ++ out e'
  flush : ∀ {e e' : E} {c c' : Bytes} {ps : List Push} {r : Except Fault Bool}, good e →
    Works (ops.flush e) c ps c' (e', r) →
    good e' ∧ out e = sent ps ++ out e' ∧ ∀ f, r = .error f → ∃ p ∈ ps, p.answer = .error f
  encrypt : ∀ {e : E} {data : Bytes}, good e → good (ops.encrypt e data).1 ∧
    ∃ y, out (ops.encrypt e data).1 = out e ++ y ∧
      ((ops.encrypt e data).2 = .ok data.length → carries y data) ∧
      ((ops.encrypt e data).2 ≠ .ok data.length → y = [])
  closeNotify : ∀ {e : E}, good e → good (ops.closeNotify e) ∧ ∃ n, notice n ∧ out (ops.closeNotify e) = out e ++ n

variable {H : Host} {ops : EngineOps H.Engine H.Shared} {good : H.Engine → Prop} {out : H.Engine → Bytes}
  {carries : Bytes → Bytes → Prop} {notice : Bytes → Prop} {b me : Handle} {l₀ l l₁ l' : Layer H.Source H.Engine}
  {s s₁ s' : Session H.Engine} {d d' u v : Trace H} {p q data : Bytes}

/-! ## What is uttered -/

/-- From `s` to `s'`, the plaintext `p` is put behind what was to be sent, and some of all that is sent; but nothing is
said of what comes after the notice. -/
structure Session.Utters (good : H.Engine → Prop) (out : H.Engine → Bytes) (carries : Bytes → Bytes → Prop) (b : Handle)
    (s : Session H.Engine) (d : Trace H) (p : Bytes) (s' : Session H.Engine) : Prop where
  stays : good s.engine → good s'.engine
  told : s.closeNotifySent = true → s'.closeNotifySent = true
  sends : good s.engine → s'.closeNotifySent = false →
    ∃ y, carries y p ∧ outgoing b d ++ out s'.engine = out s.engine ++ y

/-- The session of a layer, if it has one, was there before, and `p` was put behind what it had to send. -/
def Utters (good : H.Engine → Prop) (out : H.Engine → Bytes) (carries : Bytes → Bytes → Prop) (b : Handle)
    (l : Layer H.Source H.Engine) (d : Trace H) (p : Bytes) (l' : Layer H.Source H.Engine) : Prop :=
  ∀ s', l'.session = some s' → ∃ s, l.session = some s ∧ s.Utters good out carries b d p s'

theorem Session.Utters.of_same (hq : Scribes ops good out carries notice) (he : s'.engine = s.engine)
    (hn : s'.closeNotifySent = s.closeNotifySent) (hd : outgoing b d = []) :
    s.Utters good out carries b d [] s' := by
  refine ⟨fun hg => by rwa [he], fun ht => hn.trans ht, fun _ _ => ⟨[], hq.nil, ?_⟩⟩
  rw [hd, he, List.nil_append, List.append_nil]

theorem Session.Utters.trans (hq : Scribes ops good out carries notice) (h : s.Utters good out carries b d p s₁)
    (h' : s₁.Utters good out carries b d' q s') : s.Utters good out carries b (d ++ d') (p ++ q) s' := by
  refine ⟨fun hg => h'.stays (h.stays hg), fun ht => h'.told (h.told ht), fun hg hn => ?_⟩
  have hn₁ : s₁.closeNotifySent = false := by
    rw [← Bool.not_eq_true]
    intro ht
    rw [h'.told ht] at hn
    cases hn
  obtain ⟨y, hy, hout⟩ := h.sends hg hn₁
  obtain ⟨z, hz, hout'⟩ := h'.sends (h.stays hg) hn
  refine ⟨y ++ z, hq.append hy hz, ?_⟩
  calc outgoing b (d ++ d') ++ out s'.engine = outgoing b d ++ (outgoing b d' ++ out s'.engine) := by
        rw [outgoing_append, List.append_assoc]
    _ = (outgoing b d ++ out s₁.engine) ++ z := by rw [hout', List.append_assoc]
    _ = out s.engine ++ (y ++ z) := by rw [hout, List.append_assoc]

/-- Besides, something may be asked that sends nothing. -/
theorem Session.Utters.more (hq : Scribes ops good out carries notice) (h : s.Utters good out carries b d p s₁)
    (he : s'.engine = s₁.engine) (hn : s'.closeNotifySent = s₁.closeNotifySent) (hv : outgoing b v = []) :
    s.Utters good out carries b (d ++ v) p s' := by
  have h' := h.trans hq (Session.Utters.of_same hq he hn hv)
  rwa [List.append_nil] at h'

theorem Utters.of_none (h : l'.session = none) : Utters good out carries b l d p l' := by
  intro s' hs'
  rw [h] at hs'
  cases hs'

theorem Utters.of_session (hq : Scribes ops good out carries notice) (h : l'.session = l.session)
    (hd : outgoing b d = []) : Utters good out carries b l d [] l' := fun s' hs' =>
  ⟨s', h ▸ hs', .of_same hq rfl rfl hd⟩

theorem Utters.holding (hs : l.session = some s) (h : s.Utters good out carries b d p s') :
    Utters good out carries b l d p (l.holding s') := by
  rintro s₁ ⟨⟩
  exact ⟨s, hs, h⟩

theorem Utters.trans (hq : Scribes ops good out carries notice) (h : Utters good out carries b l d p l₁)
    (h' : Utters good out carries b l₁ d' q l') : Utters good out carries b l (d ++ d') (p ++ q) l' := by
  intro s' hs'
  obtain ⟨s₁, hs₁, hu'⟩ := h' s' hs'
  obtain ⟨s, hs, hu⟩ := h s₁ hs₁
  exact ⟨s, hs, hu.trans hq hu'⟩

theorem Utters.ended (h : Utters good out carries b l d p l') : Utters good out carries b l d p l'.ended :=
  fun s' hs' => h s' (Layer.session_of_ended hs')

theorem Utters.fit (h : Utters good out carries b l d p l') (hg : l.Fit good) : l'.Fit good := by
  intro s' hs'
  obtain ⟨s, hs, hu⟩ := h s' hs'
  exact hu.stays (hg s hs)

/-! ## Methods that do not write -/

/-- The same engine, but it encrypts nothing. -/
def wordless (ops : EngineOps H.Engine H.Shared) : EngineOps H.Engine H.Shared where
  isHandshaking := ops.isHandshaking
  handshake := ops.handshake
  decrypt := ops.decrypt
  encrypt e _ := (e, .error .closed)
  flush := ops.flush
  wantsWrite := ops.wantsWrite
  buffered := ops.buffered
  closeNotify := ops.closeNotify
  info := ops.info

/-- Who does not write needs no engine that encrypts. -/
theorem step_wordless {m : Method} (hm : m.writes = false) : Secure.step (wordless ops) me m = Secure.step ops me m := by
  cases m with
  | op o =>
    cases o with
    | write data flags => cases hm
    | lower e => rfl
    | shutdown dir => cases dir <;> rfl
    | _ => rfl
  | settled v => rfl
  | dealloc => rfl

theorem Acks.outgoing_eq {n : Nat} (h : Acks b n u) : outgoing b u = [] := by
  cases h <;> rfl

theorem Idle.outgoing_eq {x : Exchange (io H)} (h : Idle b x) : outgoing b [x] = [] := by
  cases h with
  | @ask o ho x => cases o <;> first | rfl | cases ho
  | _ => rfl

/-- What an engine that is driven sends is what its call sends. -/
theorem Drives.utters {α : Type} {f : EngineAct H.Shared (H.Engine × α)} {a : α} (hd : Drives b s f a u s')
    (h : good s.engine → ∀ {c c' : Bytes} {ps : List Push}, Works f c ps c' (s'.engine, a) →
      good s'.engine ∧ ∃ y, carries y p ∧ out s.engine ++ y = sent ps ++ out s'.engine) :
    s.Utters good out carries b u p s' := by
  cases hd with
  | intro hw hrx hu =>
    refine ⟨fun hg => (h hg hw).1, id, fun hg _ => ?_⟩
    obtain ⟨-, y, hy, hout⟩ := h hg hw
    refine ⟨y, hy, ?_⟩
    rw [hu.outgoing_eq]
    exact hout.symm

/-- Flushing puts nothing behind what is to be sent. -/
theorem Drives.flushes (hq : Scribes ops good out carries notice) {r : Except Fault Bool}
    (hd : Drives b s (ops.flush s.engine) r u s') : s.Utters good out carries b u [] s' := by
  refine hd.utters fun hg _ _ _ hw => ?_
  obtain ⟨hgood, hout, -⟩ := hq.flush hg hw
  refine ⟨hgood, [], hq.nil, ?_⟩
  rw [List.append_nil]
  exact hout

theorem Completes.utters {n : Nat} (hq : Scribes ops good out carries notice) (h : Completes b s n u s') :
    s.Utters good out carries b u [] s' := by
  cases h with
  | partly => exact .of_same hq rfl rfl rfl
  | fully _ hu => exact .of_same hq rfl rfl hu.outgoing_eq

theorem Opens.utters {r : Decrypted} (ho : Opens ops b l s (.ok r) u s') (hq : Scribes ops good out carries notice) :
    l.session = some s ∧ s.Utters good out carries b u [] s' := by
  cases ho with
  | intro hp hrx hs hf ha n hd => exact ⟨hs, hd.utters fun hg _ _ _ hw => hq.decrypt hg hw⟩

/-- An engine that encrypts nothing keeps to the contract. -/
theorem Scribes.wordless (hq : Scribes ops good out carries notice) : Scribes (wordless ops) good out carries notice where
  nil := hq.nil
  append := hq.append
  handshake := hq.handshake
  decrypt := hq.decrypt
  flush := hq.flush
  encrypt := fun hg => ⟨hg, [], (List.append_nil _).symm, fun h => (by cases h), fun _ => rfl⟩
  closeNotify := hq.closeNotify

/-- Without encryption, no move puts any plaintext behind what is to be sent. -/
theorem Move.utters (h : Move (wordless ops) b l d l') (hq : Scribes ops good out carries notice) :
    Utters good out carries b l d [] l' := by
  cases h with
  | idle hx => exact .of_session hq rfl hx.outgoing_eq
  | connecting => exact .of_session hq rfl rfl
  | unshaken | unopened => exact .of_none rfl
  | @shaken s s' x u v hp hs hd y hv =>
    have hshaken : s.Utters good out carries b u [] s' := hd.utters fun hg _ _ _ hw => hq.handshake hg hw
    have hrest : outgoing b (⟨.ask b .output, y⟩ :: v) = [] := by
      rw [outgoing_cons, hv.outgoing_eq]
      rfl
    rintro s₁ ⟨⟩
    exact ⟨s, hs, hshaken.more hq rfl rfl hrest⟩
  | sealed data sent hs => exact .holding hs (.of_same hq rfl rfl rfl)
  | flushed hs hd => exact .holding hs (Drives.flushes hq hd)
  | offered hp hrx hs => exact .holding hs (.of_same hq rfl rfl rfl)
  | @opened s s₁ s' text u v ho hv =>
    obtain ⟨hs, hrun⟩ := ho.utters hq.wordless
    have hheld : s.Utters good out carries b (u ++ []) [] (s₁.opened text) := hrun.more hq rfl rfl rfl
    rw [List.append_nil] at hheld
    exact .holding hs (hheld.trans hq (hv.utters hq))
  | stalled ho hr hv =>
    obtain ⟨hs, hrun⟩ := ho.utters hq.wordless
    exact .holding hs (hrun.trans hq (hv.utters hq))
  | drained ho hr hv =>
    obtain ⟨hs, hrun⟩ := ho.utters hq.wordless
    exact (Utters.holding hs ((hrun.trans hq (hv.utters hq)).more hq rfl rfl rfl)).ended
  | @finished s s' u v ho hv =>
    obtain ⟨hs, hrun⟩ := ho.utters hq.wordless
    have hdone : s.Utters good out carries b (u ++ v) [] s'.recordDone := hrun.more hq rfl rfl hv.outgoing_eq
    exact (Utters.holding hs (hdone.more hq rfl rfl rfl)).ended

theorem Moves.utters (h : Moves (wordless ops) b l d l') (hq : Scribes ops good out carries notice) :
    Utters good out carries b l d [] l' := by
  induction h with
  | refl => exact .of_session hq rfl rfl
  | step h _ ih => exact (h.utters hq).trans hq ih

theorem Drops.outgoing_eq (h : Drops b u) : outgoing b u = [] := by
  cases h <;> rfl

theorem Enter.utters {m : Method} (h : Enter b m l d l') (hq : Scribes ops good out carries notice) :
    Utters good out carries b l d [] l' := by
  cases h with
  | quiet | finished | unfinished | unasked | unrecved => exact .of_session hq rfl rfl
  | dropped _ hu => exact .of_session hq rfl hu.outgoing_eq
  | cut | lost => exact .of_none rfl
  | arrived hs | taken hs | refused hs => exact .holding hs (.of_same hq rfl rfl rfl)
  | recved hp hs hu => exact .holding hs (.of_same hq rfl rfl hu.outgoing_eq)

theorem Turns.utters {m : Method} (h : Turns (wordless ops) b m l d l') (hq : Scribes ops good out carries notice)
    (hd : ∀ config name x, ⟨.newEngine config name, x⟩ ∉ d) : Utters good out carries b l d [] l' := by
  cases h with
  | moved he hm => exact (he.utters hq).trans hq (hm.utters hq)
  | drawn => exact absurd List.mem_cons_self (hd _ _ _)
  | listened => exact .of_none rfl

/-- Once the notice is queued, nothing more is said. -/
theorem Notifies.utters (h : Notifies (wordless ops) b l d l') (hq : Scribes ops good out carries notice) :
    Utters good out carries b l d [] l' := by
  cases h with
  | already => exact .of_session hq rfl rfl
  | @now _ s _ hs hm =>
    have hqueued : Utters good out carries b l [] [] (l.holding (s.notified (ops.closeNotify s.engine))) :=
      .holding hs ⟨fun hg => (hq.closeNotify hg).1, fun _ => rfl, fun _ hn => by cases hn⟩
    exact hqueued.trans hq (hm.utters hq)

theorem Leaves.utters {m : Method} {r : m.Reply} (h : Leaves (wordless ops) b m r l d l')
    (hq : Scribes ops good out carries notice) : Utters good out carries b l d [] l' := by
  cases h with
  | aborted | freed | closed => exact .of_none rfl
  | silent | undeafened => exact .of_session hq rfl rfl
  | unclosed ho hn => exact (hn.utters hq).trans hq (.of_session hq rfl rfl)
  | unsilenced hn => exact (hn.utters hq).trans hq (.of_session hq rfl rfl)
  | silenced hn =>
    exact (hn.utters hq).trans hq fun s hs => ⟨s, Layer.session_of_silenced hs, .of_same hq rfl rfl rfl⟩
  | deafened hu =>
    intro s hs
    obtain ⟨s₀, hs₀, rfl⟩ := Layer.session_of_deafened hs
    refine ⟨s₀, hs₀, .of_same hq rfl rfl ?_⟩
    rw [outgoing_cons, hu.outgoing_eq]
    rfl

/-! ## Writes -/

/-- The connection below refuses ciphertext for want of room only. -/
def Roomy (b : Handle) (t : Trace H) : Prop := ∀ z f, ⟨.ask b (.write z .copy), .error f⟩ ∈ t → f = .wouldBlock

theorem Roomy.mono (h : Roomy b d') (hd : d ⊆ d') : Roomy b d := fun z f hz => h z f (hd hz)

theorem Roomy.not_refuses {f : Fault} (h : Roomy b d) : ¬ Refuses b f d := by
  rintro ⟨hne, z, hz⟩
  exact hne (h z f hz)

/-- What is accepted of a write. -/
def taken (data : Bytes) : Outcome → Bytes
  | .ok _ => data
  | .error _ => []

theorem flush_utters (hq : Scribes ops good out carries notice) (hl : l.Sound) (hg : l.Fit good) :
    Does b (flush ops me) l fun r d l' => l'.Sound ∧ Utters good out carries b l d [] l' ∧
      ∀ f, r = .error f → Refuses b f d := by
  refine flush_does hl (fun _ => ⟨hl, .of_session hq rfl rfl, fun f hf => by cases hf⟩) fun s s' r u hs hd v hv₁ hv₂ => ?_
  have hv : outgoing b v = [] := by
    cases r with
    | error f => rw [hv₁ f rfl]; rfl
    | ok c =>
      obtain ⟨x, rfl⟩ := hv₂ c rfl
      rfl
  refine ⟨.holding (hd.sound (hl s hs)), .holding hs ((hd.flushes hq).more hq rfl rfl hv), fun f hf => ?_⟩
  cases hd with
  | intro hw hrx hu =>
    obtain ⟨-, -, hfails⟩ := hq.flush (hg s hs) hw
    obtain ⟨x, hx, hxf⟩ := hfails f hf
    exact (hu.refuses hx hxf).mono (List.subset_append_left ..)

theorem encrypt_utters (hq : Scribes ops good out carries notice) (hl : l.Sound) (hg : l.Fit good)
    (clear : Except Fault Bool) : Does b (Secure.encrypt ops me data clear) l fun r d l' =>
      Roomy b d → Utters good out carries b l d (taken data r) l' := by
  have hstay : ∀ f, Roomy b ([] : Trace H) → Utters good out carries b l [] (taken data (.error f)) l :=
    fun f _ => .of_session hq rfl rfl
  unfold Secure.encrypt
  split
  · rw [does_pure]
    exact hstay _
  · simp only [does_bind, does_note, does_pure]
    exact hstay _
  · simp only [does_bind, does_get]
    split
    · rw [does_pure]
      exact hstay _
    · rename_i s hs
      have hgood := hg s hs
      obtain ⟨hgood', y, hout, hwhole, hnone⟩ := (hq.encrypt hgood : good (ops.encrypt s.engine data).1 ∧ _)
      -- what is not taken as a whole leaves no trace
      have hrefused : (ops.encrypt s.engine data).2 ≠ .ok data.length →
          Utters good out carries b l [] [] (l.holding { s with engine := (ops.encrypt s.engine data).1 }) := by
        intro hne
        refine .holding hs ⟨fun _ => hgood', id, fun _ _ => ⟨[], hq.nil, ?_⟩⟩
        rw [hout, hnone hne]
        rfl
      simp only [does_bind, does_setSession]
      split
      · rename_i f hf
        rw [does_pure]
        exact fun _ => hrefused (by rw [hf]; simp)
      · rename_i n hn
        split
        · rename_i hpart
          simp only [does_bind, does_note, does_pure]
          exact fun _ => hrefused (by rw [hn]; simpa using hpart)
        · rename_i hall
          have htakes : (ops.encrypt s.engine data).2 = .ok data.length := by rw [hn, Decidable.not_not.1 hall]
          simp only [does_bind, does_setSession]
          have hput : Utters good out carries b l [] data
              (l.holding { s with engine := (ops.encrypt s.engine data).1, applDataSent := true }) := by
            refine .holding hs ⟨fun _ => hgood', id, fun _ _ => ⟨y, hwhole htakes, ?_⟩⟩
            rw [outgoing_nil, List.nil_append]
            exact hout
          have hsound : (l.holding { s with engine := (ops.encrypt s.engine data).1, applDataSent := true }).Sound :=
            .holding ⟨(hl s hs).rx, (hl s hs).rxApp, (hl s hs).inFlight⟩
          refine (flush_utters hq hsound (hput.fit hg)).mono fun r d l' h => ?_
          obtain ⟨-, hsent, hfails⟩ := h
          rw [does_pure]
          intro hroom
          simp only [List.nil_append, List.append_nil] at hroom ⊢
          cases r with
          | ok c =>
            have hboth := hput.trans hq hsent
            rwa [List.append_nil] at hboth
          | error f => exact absurd (hfails f rfl) hroom.not_refuses

/-- **What a write puts behind what is to be sent** is its data when it is accepted, and nothing else, as long as the
connection below refuses ciphertext for want of room only. -/
theorem write_utters (hq : Scribes ops good out carries notice) (hl : l.Sound) (hg : l.Fit good) :
    Does b (Secure.write ops me data) l fun r d l' =>
      Roomy b d → Utters good out carries b l d (taken data r) l' := by
  have hstay : ∀ f, Roomy b ([] : Trace H) → Utters good out carries b l [] (taken data (.error f)) l :=
    fun f _ => .of_session hq rfl rfl
  unfold Secure.write
  simp only [does_bind, does_get]
  split
  · rw [does_pure]
    exact hstay _
  · rw [does_pure]
    exact hstay _
  · rw [does_pure]
    exact hstay _
  · split
    · rw [does_pure]
      exact hstay _
    · split
      · rename_i hempty
        rw [does_pure]
        have hnil : data = [] := by simpa using hempty
        rw [hnil]
        exact fun _ => .of_session hq rfl rfl
      · split
        · rw [does_bind]
          refine (flush_utters hq hl hg).mono fun r d l' h => ?_
          obtain ⟨hsound, hsent, -⟩ := h
          refine (encrypt_utters hq hsound (hsent.fit hg) r).mono fun x d' l'' h' hroom => ?_
          rw [List.nil_append] at hroom ⊢
          exact hsent.trans hq (h' (hroom.mono (List.subset_append_right ..)))
        · exact encrypt_utters hq hl hg (.ok true)

/-! ## Lives -/

/-- What is accepted of what a call writes. -/
def Call.taken : Call H → Bytes
  | ⟨_, .op (.write data _), r, _, _⟩ => Tls.taken data r
  | _ => []

/-- All that was written and accepted. -/
def written (h : List (Call H)) : Bytes := h.flatMap Call.taken

theorem call_utters {m : Method} {r : m.Reply} {t : Trace H} (hy : (Secure.step ops me m l).Yields t (r, l'))
    (hb : Over b t) (hq : Scribes ops good out carries notice) (hl : l.Sound) (hg : l.Fit good)
    (hd : (⟨l, m, r, t, l'⟩ : Call H).drawsNone = true) (hroom : Roomy b t) :
    Utters good out carries b l (deeds t) (⟨l, m, r, t, l'⟩ : Call H).taken l' := by
  have hroom' : Roomy b (deeds t) := hroom.mono fun x hx => (List.mem_filter.1 hx).1
  by_cases hm : m.writes = true
  · unfold Method.writes at hm
    split at hm
    · exact write_utters hq hl hg t _ l' hy hb hroom'
    · cases hm
  · have hm : m.writes = false := by simpa using hm
    have hnone : (⟨l, m, r, t, l'⟩ : Call H).taken = [] := by
      unfold Call.taken
      split
      · rename_i heq
        cases heq
        cases hm
      · rfl
    rw [hnone]
    have hy' : (Secure.step (wordless ops) me m l).Yields t (r, l') := by
      rw [step_wordless hm]
      exact hy
    by_cases hleaves : m.leaves = true
    · exact (Call.leaves hy' hb hl hleaves).utters hq
    · exact (Call.turns hy' hb hl (by simpa using hleaves)).utters hq (Call.not_drawn_deeds hd)

/-- In a life, what is put behind what was to be sent is what the writes brought that were accepted. -/
theorem Life.utters {h : List (Call H)} (hl : Life ops b me l₀ h l) (hq : Scribes ops good out carries notice)
    (hs₀ : l₀.Sound) (hg₀ : l₀.Fit good) (hd : ∀ c ∈ h, c.drawsNone = true)
    (hroom : Roomy b (h.flatMap (·.trace))) : Utters good out carries b l₀ (deeds (h.flatMap (·.trace))) (written h) l := by
  induction hl with
  | start => exact .of_session hq rfl rfl
  | @call h l l' m r t hl _ hy hb ih =>
    rw [List.flatMap_append, List.flatMap_singleton] at hroom ⊢
    have hbefore := ih (fun c hc => hd c (by simp [hc])) (hroom.mono (List.subset_append_left ..))
    have hcall := call_utters hy hb hq (hl.sound hs₀) (hbefore.fit hg₀) (hd _ (by simp))
      (hroom.mono (List.subset_append_right ..))
    have hboth := hbefore.trans hq hcall
    rw [deeds_append]
    unfold written at hboth ⊢
    rwa [List.flatMap_append, List.flatMap_singleton]

/-! ## Departing -/

/-- An established layer that has not told its peer that no more will come. -/
structure Layer.Talks (l : Layer H.Source H.Engine) : Prop where
  phase : l.phase = .established
  txClosed : l.txClosed = false
  session : ∃ s, l.session = some s ∧ s.closeNotifySent = false

/-- Whether a call ends what is sent: it closes the connection, or its write half. -/
def Call.departs : Call H → Bool
  | ⟨_, .op .close, .ok _, _, _⟩ | ⟨_, .op (.shutdown .both), .ok _, _, _⟩ | ⟨_, .op (.shutdown .write), .ok _, _, _⟩ => true
  | _ => false

/-- What a call does that ends what is sent: `u` is asked, which leaves `l₁`, and then the connection below is asked for
its end, or for that of its write half. -/
inductive Departing (b : Handle) (d u : Trace H) (l₁ l' : Layer H.Source H.Engine) : Prop
  | closed (hd : d = u ++ [⟨.ask b .close, .ok ()⟩, ⟨.release, ()⟩]) (hl : l' = l₁.gone)
  | silenced (hd : d = u ++ [⟨.ask b (.shutdown .write), .ok ()⟩]) (hl : l' = l₁.silenced)

theorem Departing.outgoing_eq (h : Departing b d u l₁ l') : outgoing b d = outgoing b u := by
  cases h with
  | closed hd | silenced hd =>
    rw [hd, outgoing_append]
    exact List.append_nil _

theorem close_departs (hl : l.Sound) : Does b (close ops me) l fun r d l' =>
    r = .ok () → ∃ u l₁, Tells ops b l u l₁ ∧ Departing b d u l₁ l' := by
  unfold close
  simp only [does_bind]
  refine sendCloseNotify_tells hl fun u l₁ hu => ?_
  simp only [does_bind, does_inner, does_ask]
  intro x
  cases x with
  | error f =>
    rw [does_pure]
    exact fun h => by cases h
  | ok _ =>
    simp only [does_bind, does_get, does_note, does_modify, does_release, does_pure, List.nil_append, List.append_nil]
    exact fun _ => ⟨u, l₁, hu, .closed rfl rfl⟩

theorem shutdownWrite_departs (hl : l.Sound) (ht : l.txClosed = false) : Does b (shutdownWrite ops me) l fun r d l' =>
    r = .ok () → ∃ u l₁, Tells ops b l u l₁ ∧ Departing b d u l₁ l' := by
  unfold shutdownWrite
  simp only [does_bind, does_get, ht, Bool.false_eq_true, if_false]
  refine sendCloseNotify_tells hl fun u l₁ hu => ?_
  simp only [does_bind, does_inner, does_ask]
  intro x
  cases x with
  | error f =>
    rw [does_pure]
    exact fun h => by cases h
  | ok _ =>
    have hsilent : Departing b (u ++ [⟨.ask b (.shutdown .write), .ok ()⟩]) u l₁ l₁.silenced := .silenced rfl rfl
    simp only [does_bind, does_modify, does_get]
    split
    · rename_i hr
      simp only [does_bind]
      refine afterRxClosed_does ?_
      simp only [does_pure, List.nil_append, List.append_nil]
      rw [show l₁.silenced = { l₁ with txClosed := true, session := none } by simp [Layer.silenced, hr]] at hsilent
      exact fun _ => ⟨u, l₁, hu, hsilent⟩
    · rename_i hr
      simp only [does_pure, List.nil_append, List.append_nil]
      rw [show l₁.silenced = { l₁ with txClosed := true } by simp [Layer.silenced, hr]] at hsilent
      exact fun _ => ⟨u, l₁, hu, hsilent⟩

theorem call_departs {m : Method} {r : m.Reply} {t : Trace H} (hy : (Secure.step ops me m l).Yields t (r, l'))
    (hb : Over b t) (hl : l.Sound) (ht : l.txClosed = false) (hc : (⟨l, m, r, t, l'⟩ : Call H).departs = true) :
    ∃ u l₁, Tells ops b l u l₁ ∧ Departing b (deeds t) u l₁ l' := by
  unfold Call.departs at hc
  split at hc
  · rename_i heq
    cases heq
    exact close_departs hl t _ l' hy hb rfl
  · rename_i heq
    cases heq
    exact close_departs hl t _ l' hy hb rfl
  · rename_i heq
    cases heq
    exact shutdownWrite_departs hl ht t _ l' hy hb rfl
  · cases hc

/-- Whoever is told is told behind all that was to be sent. -/
theorem Tells.notices (h : Tells ops b l u l₁) (hq : Scribes ops good out carries notice) (hl : l.Talks)
    (hg : l.Fit good) : ∃ n, notice n ∧ outgoing b u ++ l₁.ready out = l.ready out ++ n := by
  obtain ⟨s, hs, hn⟩ := hl.session
  cases h with
  | not htold =>
    rw [htold hl.phase s hs] at hn
    cases hn
  | @now s₀ s' r u v hp hs₀ hn₀ hd hv =>
    have hv : outgoing b v = [] := by
      rcases hv with rfl | ⟨x, rfl⟩ <;> rfl
    obtain ⟨hgood, n, hnotice, hqueued⟩ := hq.closeNotify (hg s₀ hs₀)
    refine ⟨n, hnotice, ?_⟩
    cases hd with
    | intro hw hrx hu =>
      obtain ⟨-, hout, -⟩ := hq.flush hgood hw
      rw [outgoing_append, hv, List.append_nil, hu.outgoing_eq]
      simp only [Layer.ready, Layer.holding, hs₀, Option.map_some, Option.getD_some, Session.worked]
      exact hout.symm.trans hqueued

/-- The connection below takes nothing more. -/
def Declines (b : Handle) (t : Trace H) : Prop := ∀ z f x, ⟨.ask b (.write z f), x⟩ ∈ t → x ≠ .ok ()

theorem Declines.outgoing_eq {t : Trace H} (h : Declines b t) : outgoing b t = [] := by
  unfold outgoing
  rw [List.flatMap_eq_nil_iff]
  intro x hx
  unfold putsOn
  split
  · rename_i id data f
    split
    · rename_i heq
      rw [heq] at hx
      exact absurd rfl (h _ _ _ hx)
    · rfl
  · rfl

/-- **What was sent, and what is left, is what was written and the notice**: when a connection is closed, or its write half
is, all that was accepted has been put behind what was to be sent, and the notice behind that. What the engine has not sent
of it when the connection below is asked for its end is sent no more. -/
theorem Life.departs {past future : List (Call H)} {c : Call H} (hl : Life ops b me l₀ (past ++ c :: future) l)
    (hq : Scribes ops good out carries notice) (hs₀ : l₀.Sound) (hg₀ : l₀.Fit good)
    (hd : ∀ x ∈ past, x.drawsNone = true) (hroom : Roomy b (past.flatMap (·.trace))) (ht : c.before.Talks)
    (hc : c.departs = true) (hdeclines : Declines b (future.flatMap (·.trace))) :
    ∃ u l₁ y n, Tells ops b c.before u l₁ ∧ Departing b (deeds c.trace) u l₁ c.after ∧ carries y (written past) ∧
      notice n ∧
      outgoing b ((past ++ c :: future).flatMap (·.trace)) ++ l₁.ready out = l₀.ready out ++ (y ++ n) := by
  have hat := hl.amid
  have hsound := hat.before.sound hs₀
  have hutters := hat.before.utters hq hs₀ hg₀ hd hroom
  have hfit := hutters.fit hg₀
  obtain ⟨u, l₁, htells, hdeparting⟩ := call_departs hat.yields hat.around hsound ht.txClosed hc
  obtain ⟨n, hnotice, hrest⟩ := htells.notices hq ht hfit
  -- what was written stands behind what was to be sent at first
  obtain ⟨s, hs, hn⟩ := ht.session
  obtain ⟨s₀, hs₀', hsaid⟩ := hutters s hs
  obtain ⟨y, hy, hfirst⟩ := hsaid.sends (hg₀ s₀ hs₀') hn
  refine ⟨u, l₁, y, n, htells, hdeparting, hy, hnotice, ?_⟩
  have hready₀ : l₀.ready out = out s₀.engine := by simp [Layer.ready, hs₀']
  have hready : c.before.ready out = out s.engine := by simp [Layer.ready, hs]
  have hcall : outgoing b c.trace = outgoing b u := by rw [← outgoing_deeds, hdeparting.outgoing_eq]
  rw [outgoing_deeds] at hfirst
  calc outgoing b ((past ++ c :: future).flatMap (·.trace)) ++ l₁.ready out
      = outgoing b (past.flatMap (·.trace)) ++ (outgoing b u ++ l₁.ready out) := by
        rw [List.flatMap_append, List.flatMap_cons, outgoing_append, outgoing_append, hdeclines.outgoing_eq, hcall,
          List.append_nil, List.append_assoc]
    _ = (outgoing b (past.flatMap (·.trace)) ++ out s.engine) ++ n := by rw [hrest, hready, List.append_assoc]
    _ = l₀.ready out ++ (y ++ n) := by rw [hfirst, hready₀, List.append_assoc]

/-! ## Toy engines -/

namespace Toy

variable {V : Type} {tag : Nat} {e e₁ e' : Engine} {c x y body : Bytes} {ps qs : List Push} {p q d : Bytes}

/-- A row of records with the plaintext in it: of records of plaintext, and of others that ask for no answer. -/
inductive Spoken (tag : Nat) : Bytes → Bytes → Prop
  | nil : Spoken tag [] []
  | aside {body y p : Bytes} (hlen : body.length < 2 ^ 16) (hhead : body.head? ≠ some (UInt8.ofNat 'k'.toNat))
      (h : Spoken tag y p) : Spoken tag (record 0x16 body ++ y) p
  | piece {d y p : Bytes} (hlen : d.length + tag < 2 ^ 16) (h : Spoken tag y p) : Spoken tag (piece tag d ++ y) (d ++ p)

theorem Spoken.append (h : Spoken tag x p) (h' : Spoken tag y q) : Spoken tag (x ++ y) (p ++ q) := by
  induction h with
  | nil => exact h'
  | aside hlen hhead _ ih =>
    rw [List.append_assoc]
    exact .aside hlen hhead ih
  | piece hlen _ ih =>
    rw [List.append_assoc, List.append_assoc]
    exact .piece hlen ih

/-- No failure is planned for an engine, and what it sends fits into records that end in `tag` bytes. -/
structure Literate (tag : Nat) (p : Profile) : Prop where
  reliable : p.faults = []
  tagged : p.tag = tag
  pos : 0 < p.frag
  size : p.frag + tag < 2 ^ 16
  fin : p.fin < 2 ^ 16
  reply : ∀ n ∈ p.reply, n < 2 ^ 16
  tickets : ∀ n ∈ p.tickets, n < 2 ^ 16

/-- What `e` had to send, and what it had to say besides, is what was sent and what `e'` has to send. -/
def Gives (tag : Nat) (e : Engine) (ps : List Push) (e' : Engine) : Prop :=
  e'.profile = e.profile ∧ (Literate tag e.profile → ∃ y, Spoken tag y [] ∧ e.out ++ y = sent ps ++ e'.out)

theorem Gives.trans (h : Gives tag e ps e₁) (h' : Gives tag e₁ qs e') : Gives tag e (ps ++ qs) e' := by
  refine ⟨h'.1.trans h.1, fun hl => ?_⟩
  obtain ⟨y, hy, hout⟩ := h.2 hl
  obtain ⟨z, hz, hout'⟩ := h'.2 (by rwa [h.1])
  refine ⟨y ++ z, hy.append hz, ?_⟩
  rw [← List.append_assoc, hout, List.append_assoc, hout', sent_append, List.append_assoc]

/-- What is queued is said besides. -/
theorem Gives.queue {y : Bytes} (hp : e'.profile = e.profile) (ho : e'.out = e.out ++ y)
    (hy : Literate tag e.profile → Spoken tag y []) : Gives tag e [] e' :=
  ⟨hp, fun hl => ⟨y, hy hl, ho.symm⟩⟩

theorem Gives.same (hp : e'.profile = e.profile) (ho : e'.out = e.out) : Gives tag e [] e' :=
  .queue hp (by rw [ho, List.append_nil]) fun _ => .nil

end Toy

end Tls

end Conduit
