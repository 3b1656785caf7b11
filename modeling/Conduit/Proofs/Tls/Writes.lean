import Conduit.Proofs.Tls.Pairs
import Conduit.Proofs.Tls.Refusals
import Conduit.Proofs.Tls.Wakes

/-!
# Writes, as a whole or not at all

A write gives the engine all of its data or none of it. What the engine has taken is sent in the end, also when the
connection below refuses to take it at once: then the write was made, and is answered with the refusal all the same.

* `Seals`: an engine that encrypts data as a whole or not at all.
* `Layer.Puts`: what a write puts behind the ciphertext that was to be sent already, and what it leaves as it was.
* `write_puts`: what a write comes to, whatever the connection below answers.
* `Life.writes_whole`: **data is written as a whole or not at all**, and not at all when there is no room.
* `Toy.seals`: the toy engine keeps to the contract.
-/

namespace Conduit

open Layer Layer.Act Secure

namespace Tls

/-- Engines that encrypt data as a whole or not at all: `out e` is the ciphertext that `e` has ready to send, and
`opens y` is the plaintext of the ciphertext `y`. What is ready is sent in its order and never lost, and sending fails
only with a push. -/
structure Seals {E V : Type} (ops : EngineOps E V) (good : E → Prop) (out : E → Bytes) (opens : Bytes → Bytes) :
    Prop where
  flush : ∀ {e e' : E} {c c' : Bytes} {ps : List Push} {r : Except Fault Bool}, good e →
    Works (ops.flush e) c ps c' (e', r) →
    c' = c ∧ out e = sent ps ++ out e' ∧ ∀ f, r = .error f → ∃ p ∈ ps, p.answer = .error f
  taken : ∀ {e : E} {data : Bytes}, good e → (ops.encrypt e data).2 = .ok data.length →
    ∃ y, opens y = data ∧ out (ops.encrypt e data).1 = out e ++ y
  refused : ∀ {e : E} {data : Bytes}, good e → (ops.encrypt e data).2 ≠ .ok data.length →
    out (ops.encrypt e data).1 = out e

variable {H : Host} {ops : EngineOps H.Engine H.Shared} {good : H.Engine → Prop} {out : H.Engine → Bytes}
  {opens : Bytes → Bytes} {b me : Handle} {l₀ l l₁ l' : Layer H.Source H.Engine} {s s' : Session H.Engine}
  {d d' u v : Trace H} {y y' z : Option Bytes} {data : Bytes} {f : Fault}

/-! ## What is put behind what was ready -/

/-- The ciphertext that the engine of the session has ready to send. -/
def Layer.ready {S E : Type} (out : E → Bytes) (l : Layer S E) : Bytes := (l.session.map fun s => out s.engine).getD []

/-- From `l` to `l'`, some of the ciphertext that was ready was sent, and `y` was put behind it, if it is anything. All
else is as it was. -/
structure Layer.Puts (out : H.Engine → Bytes) (b : Handle) (l : Layer H.Source H.Engine) (d : Trace H)
    (y : Option Bytes) (l' : Layer H.Source H.Engine) : Prop where
  shell : l' = { l with session := l'.session }
  lives : l'.session.isSome = l.session.isSome
  held : ∀ s s', l.session = some s → l'.session = some s' → s'.rx.toList = s.rx.toList ∧
    s' = { s with engine := s'.engine, rx := s'.rx, applDataSent := s.applDataSent || y.isSome }
  sends : outgoing b d ++ l'.ready out = l.ready out ++ y.getD []

namespace Layer.Puts

theorem refl (l : Layer H.Source H.Engine) : l.Puts out b [] none l := by
  refine ⟨rfl, rfl, fun s s' hs hs' => ?_, by simp⟩
  cases hs.symm.trans hs'
  exact ⟨rfl, by simp⟩

theorem trans (h : l.Puts out b d y l₁) (h' : l₁.Puts out b d' y' l') (hsome : z.isSome = (y.isSome || y'.isSome))
    (hz : z.getD [] = y.getD [] ++ y'.getD []) : l.Puts out b (d ++ d') z l' := by
  refine ⟨?_, h'.lives.trans h.lives, fun s s' hs hs' => ?_, ?_⟩
  · have hfirst := h.shell
    have hthen := h'.shell
    generalize l'.session = t at *
    rw [hthen, hfirst]
  · have hlives : l₁.session.isSome := by rw [h.lives, hs]; rfl
    obtain ⟨s₁, hs₁⟩ := Option.isSome_iff_exists.1 hlives
    obtain ⟨hrx, heq⟩ := h.held s s₁ hs hs₁
    obtain ⟨hrx', heq'⟩ := h'.held s₁ s' hs₁ hs'
    refine ⟨hrx'.trans hrx, ?_⟩
    rw [heq', heq, hsome, Bool.or_assoc]
  · calc outgoing b (d ++ d') ++ l'.ready out = outgoing b d ++ (outgoing b d' ++ l'.ready out) := by
          rw [outgoing_append, List.append_assoc]
      _ = (outgoing b d ++ l₁.ready out) ++ y'.getD [] := by rw [h'.sends, List.append_assoc]
      _ = l.ready out ++ z.getD [] := by rw [h.sends, hz, List.append_assoc]

/-- First some of what was ready is sent. -/
theorem after (h : l.Puts out b d none l₁) (h' : l₁.Puts out b d' y l') : l.Puts out b (d ++ d') y l' :=
  h.trans h' (by simp) (by simp)

/-- Then some more is sent. -/
theorem onward (h : l.Puts out b d y l₁) (h' : l₁.Puts out b d' none l') : l.Puts out b (d ++ d') y l' :=
  h.trans h' (by simp) (by simp)

end Layer.Puts

/-- The connection below has refused with `f` to take some ciphertext, and not for want of room. -/
def Refuses (b : Handle) (f : Fault) (d : Trace H) : Prop :=
  f ≠ .wouldBlock ∧ ∃ z, ⟨.ask b (.write z .copy), .error f⟩ ∈ d

theorem Refuses.mono (h : Refuses b f d) (hd : d ⊆ d') : Refuses b f d' :=
  ⟨h.1, h.2.imp fun _ hz => hd hz⟩

/-- A push fails when the connection below refuses what is written for it. -/
theorem Relays.refuses {ps : List Push} (h : Relays b ps u) {p : Push} (hp : p ∈ ps) (hf : p.answer = .error f) :
    Refuses b f u := by
  induction h with
  | nil => cases hp
  | cons h _ ih =>
    rcases List.mem_cons.1 hp with rfl | hp
    · cases h with
      | refused h0 hne =>
        cases hf
        exact ⟨hne, _, List.mem_cons_of_mem _ List.mem_cons_self⟩
      | full | written | busy => cases hf
    · exact (ih hp).mono (List.subset_append_right ..)

/-! ## The parts of a write -/

/-- Sending puts nothing behind what was ready. -/
theorem flush_puts (hq : Seals ops good out opens) (hl : l.Sound) (hg : l.Fit good) :
    Does b (flush ops me) l fun r d l' => l.Puts out b d none l' ∧ ∀ f, r = .error f → Refuses b f d := by
  refine flush_does hl (fun _ => ⟨.refl l, fun f hf => by cases hf⟩) fun s s' r u hs hd v hv₁ hv₂ => ?_
  have hv : outgoing b v = [] := by
    cases r with
    | error f => rw [hv₁ f rfl]; rfl
    | ok c =>
      obtain ⟨x, rfl⟩ := hv₂ c rfl
      rfl
  cases hd with
  | intro hw hrx hu =>
    obtain ⟨hrest, hout, hfails⟩ := hq.flush (hg s hs) hw
    refine ⟨⟨rfl, by rw [hs]; rfl, ?_, ?_⟩, fun f hf => ?_⟩
    · rintro s₁ s₂ hs₁ ⟨⟩
      cases hs.symm.trans hs₁
      -- nothing was taken of what has arrived
      have hsize := congrArg List.length hrest
      rw [← hrx.size_eq, ← (hl s hs).rx.size_eq] at hsize
      refine ⟨hrest, ?_⟩
      simp [Session.worked, hsize]
    · simp [Layer.ready, Layer.holding, hs, Session.worked, hv, hu.outgoing_eq, hout]
    · obtain ⟨p, hp, hpf⟩ := hfails f hf
      exact (hu.refuses hp hpf).mono (List.subset_append_left ..)

/-- What the engine takes stands behind what was ready. -/
theorem seal_puts {e : H.Engine} (hs : l.session = some s) (he : out e = out s.engine ++ y.getD [])
    (hm : s' = { s with engine := e, applDataSent := s.applDataSent || y.isSome }) :
    l.Puts out b [] y (l.holding s') := by
  refine ⟨rfl, by rw [hs]; rfl, ?_, ?_⟩
  · rintro s₁ s₂ hs₁ ⟨⟩
    cases hs.symm.trans hs₁
    rw [hm]
    exact ⟨rfl, rfl⟩
  · simp [Layer.ready, Layer.holding, hs, hm, he]

/-- What a write of `data` comes to that is answered with `r`. -/
structure Written (out : H.Engine → Bytes) (opens : Bytes → Bytes) (b : Handle) (data : Bytes)
    (l : Layer H.Source H.Engine) (r : Outcome) (d : Trace H) (l' : Layer H.Source H.Engine) : Prop where
  accepted : r = .ok () →
    (data = [] ∧ l.Puts out b d none l') ∨ ∃ y, opens y = data ∧ l.Puts out b d (some y) l'
  /-- Nothing was put behind what was ready; or all of the data was, and then the connection below has refused it. -/
  refused : ∀ f, r = .error f →
    l.Puts out b d none l' ∨ ∃ y, opens y = data ∧ l.Puts out b d (some y) l' ∧ Refuses b f d

theorem Written.of_error (h : l.Puts out b d none l') : Written out opens b data l (.error f) d l' :=
  ⟨fun hr => (by cases hr), fun _ _ => .inl h⟩

/-- Before a write, some of what was ready may be sent. -/
theorem Written.after {r : Outcome} (h : l.Puts out b d none l₁) (h' : Written out opens b data l₁ r d' l') :
    Written out opens b data l r (d ++ d') l' := by
  refine ⟨fun hr => ?_, fun f hf => ?_⟩
  · rcases h'.accepted hr with ⟨hnil, hput⟩ | ⟨y, hy, hput⟩
    · exact .inl ⟨hnil, h.after hput⟩
    · exact .inr ⟨y, hy, h.after hput⟩
  · rcases h'.refused f hf with hput | ⟨y, hy, hput, hrefuses⟩
    · exact .inl (h.after hput)
    · exact .inr ⟨y, hy, h.after hput, hrefuses.mono (List.subset_append_right ..)⟩

theorem encrypt_puts (hq : Seals ops good out opens) (hr : Retains ops good) (hl : l.Sound) (hg : l.Fit good)
    (clear : Except Fault Bool) :
    Does b (Secure.encrypt ops me data clear) l fun r d l' => Written out opens b data l r d l' := by
  unfold Secure.encrypt
  split
  · rw [does_pure]
    exact .of_error (.refl l)
  · simp only [does_bind, does_note, does_pure]
    exact .of_error (.refl l)
  · simp only [does_bind, does_get]
    split
    · rw [does_pure]
      exact .of_error (.refl l)
    · rename_i s hs
      have hgood := hg s hs
      simp only [does_bind, does_setSession]
      split
      · rename_i f hf
        -- the engine refuses
        rw [does_pure]
        refine .of_error (seal_puts (y := none) hs ?_ (by rw [Option.isSome_none, Bool.or_false]))
        simpa using hq.refused hgood (by rw [hf]; simp)
      · rename_i n hn
        split
        · rename_i hpart
          -- the engine takes a part of the data, which it does not encrypt
          simp only [does_bind, does_note, does_pure]
          refine .of_error (seal_puts (y := none) hs ?_ (by rw [Option.isSome_none, Bool.or_false]))
          simpa using hq.refused hgood (by rw [hn]; simpa using hpart)
        · rename_i hwhole
          have htakes : (ops.encrypt s.engine data).2 = .ok data.length := by rw [hn, Decidable.not_not.1 hwhole]
          obtain ⟨y, hy, hout⟩ := hq.taken hgood htakes
          simp only [does_bind, does_setSession]
          have hput : l.Puts out b [] (some y) _ := seal_puts hs (by simpa using hout) rfl
          have hfit : (l.holding { s with engine := (ops.encrypt s.engine data).1, applDataSent := true }).Fit good := by
            rintro s₁ ⟨⟩
            exact (hr.encrypt hgood).1.good
          have hsound : (l.holding { s with engine := (ops.encrypt s.engine data).1, applDataSent := true }).Sound :=
            .holding ⟨(hl s hs).rx, (hl s hs).rxApp, (hl s hs).inFlight⟩
          refine (flush_puts hq hsound hfit).mono fun r d l' h => ?_
          obtain ⟨hsent, hrefuses⟩ := h
          rw [does_pure]
          simp only [Option.isSome_some, Bool.or_true] at hput
          have hall := hput.onward hsent
          simp only [List.nil_append, List.append_nil] at hall ⊢
          cases r with
          | ok c => exact ⟨fun _ => .inr ⟨y, hy, hall⟩, fun f hf => (by cases hf)⟩
          | error f =>
            -- by then the engine has taken the data
            refine ⟨fun hok => (by cases hok), fun f' hf => .inr ⟨y, hy, hall, ?_⟩⟩
            cases hf
            exact hrefuses f rfl

/-- **What a write comes to**, whatever the connection below answers. -/
theorem write_puts (hq : Seals ops good out opens) (hr : Retains ops good) (hl : l.Sound) (hg : l.Fit good) :
    Does b (Secure.write ops me data) l fun r d l' => Written out opens b data l r d l' := by
  unfold Secure.write
  simp only [does_bind, does_get]
  have hno : ∀ f, Written out opens b data l (.error f) [] l := fun f => .of_error (.refl l)
  split
  · rw [does_pure]
    exact hno _
  · rw [does_pure]
    exact hno _
  · rw [does_pure]
    exact hno _
  · split
    · rw [does_pure]
      exact hno _
    · split
      · rename_i hempty
        rw [does_pure]
        exact ⟨fun _ => .inl ⟨by simpa using hempty, .refl l⟩, fun f hf => (by cases hf)⟩
      · split
        · rw [does_bind]
          refine ((flush_puts hq hl hg).and (flush_blocks hl hr hg)).mono fun r d l' h => ?_
          obtain ⟨⟨hput, -⟩, hs, hfit, -⟩ := h
          refine (encrypt_puts hq hr hs hfit r).mono fun _ _ _ h' => ?_
          rw [List.nil_append]
          exact .after hput h'
        · exact encrypt_puts hq hr hl hg (.ok true)

/-! ## Lives -/

/-- What a call writes, and how it is answered, if it is a write. -/
def Call.write? : Call H → Option (Bytes × Outcome)
  | ⟨_, .op (.write data _), r, _, _⟩ => some (data, r)
  | _ => none

theorem call_written {c : Call H} {r : Outcome} (hy : (Secure.step ops me c.method c.before).Yields c.trace (c.reply, c.after))
    (hb : Over b c.trace) (hq : Seals ops good out opens) (hr : Retains ops good) (hl : c.before.Sound)
    (hg : c.before.Fit good) (hw : c.write? = some (data, r)) :
    Written out opens b data c.before r (deeds c.trace) c.after := by
  unfold Call.write? at hw
  split at hw
  · cases hw
    exact write_puts hq hr hl hg _ _ _ hy hb
  · cases hw

theorem Call.write?_of_blocked {c : Call H} (h : c.blocked = true) : ∃ data, c.write? = some (data, .error .wouldBlock) := by
  unfold Call.blocked at h
  split at h
  · exact ⟨_, rfl⟩
  · cases h

/-- When there is no room, nothing is put behind what was ready. -/
theorem Written.blocked (h : Written out opens b data l (.error .wouldBlock) d l') : l.Puts out b d none l' := by
  rcases h.refused _ rfl with hput | ⟨y, -, -, hne, -⟩
  · exact hput
  · exact absurd rfl hne

/-- However often there is no room. -/
theorem Life.blocked_puts {h : List (Call H)} (hl : Life ops b me l₀ h l) (hq : Seals ops good out opens)
    (hr : Retains ops good) (hs₀ : l₀.Sound) (hg₀ : l₀.Fit good) (hd : ∀ c ∈ h, c.DrawsGood good)
    (hb : ∀ c ∈ h, c.blocked = true) : l₀.Puts out b (deeds (h.flatMap (·.trace))) none l := by
  induction hl with
  | start => exact .refl l₀
  | @call h l l' m r t hl _ hy hover ih =>
    have hbefore := ih (fun c hc => hd c (by simp [hc])) fun c hc => hb c (by simp [hc])
    obtain ⟨data, hw⟩ := Call.write?_of_blocked (hb ⟨l, m, r, t, l'⟩ (by simp))
    have hfit := hl.fit hs₀ hr hg₀ fun c hc => hd c (by simp [hc])
    have hcall := (call_written (c := ⟨l, m, r, t, l'⟩) hy hover hq hr (hl.sound hs₀) hfit hw).blocked
    rw [List.flatMap_append, List.flatMap_singleton, deeds_append]
    exact hbefore.after hcall

/-- **Data is written as a whole or not at all.** A write that is accepted has put all of the data, and nothing else,
behind what was to be sent already. A write that is refused has put nothing there, unless the connection below has
refused the data when the engine had taken it. So when a write finds no room, however often, and is accepted at last,
its data is put there once. -/
theorem Life.writes_whole {h : List (Call H)} (hl : Life ops b me l₀ h l) (hq : Seals ops good out opens)
    (hr : Retains ops good) (hs₀ : l₀.Sound) (hg₀ : l₀.Fit good) (hd : ∀ c ∈ h, c.DrawsGood good) :
    (∀ past c future data r, h = past ++ c :: future → c.write? = some (data, r) →
      Written out opens b data c.before r (deeds c.trace) c.after) ∧
    ∀ past tries c future data, h = past ++ (tries ++ c :: future) → (∀ x ∈ tries, x.blocked = true) →
      data ≠ [] → c.write? = some (data, .ok ()) → ∃ l₁ y, Life ops b me l₁ (tries ++ c :: future) l ∧ opens y = data ∧
        l₁.Puts out b (deeds (tries.flatMap (·.trace)) ++ deeds c.trace) (some y) c.after := by
  have hcall : ∀ past c future data r, h = past ++ c :: future → c.write? = some (data, r) →
      Written out opens b data c.before r (deeds c.trace) c.after := by
    rintro past c future data r rfl hw
    have ham := hl.amid
    have hfit := ham.before.fit hs₀ hr hg₀ fun x hx => hd x (by simp [hx])
    exact call_written ham.yields ham.around hq hr (ham.before.sound hs₀) hfit hw
  refine ⟨hcall, fun past tries c future data heq hb hne hw => ?_⟩
  have hlast := hcall (past ++ tries) c future data _ (by rw [heq, List.append_assoc]) hw
  subst heq
  obtain ⟨l₁, hpast, hrest⟩ := hl.split
  -- as long as there is no room, nothing is put behind what was ready
  have hs := hpast.sound hs₀
  have hfit := hpast.fit hs₀ hr hg₀ fun x hx => hd x (by simp [hx])
  have htries := hrest.amid.before.blocked_puts hq hr hs hfit (fun x hx => hd x (by simp [hx])) hb
  rcases hlast.accepted rfl with ⟨hnil, -⟩ | ⟨y, hy, hput⟩
  · exact absurd hnil hne
  · exact ⟨l₁, y, hrest, hy, htries.after hput⟩

/-! ## Toy engines -/

namespace Toy

variable {V : Type} {tag frag : Nat} {e : Engine} {c : Bytes}

/-- No failure is planned for an engine, and its records end in `tag` bytes and hold no more than `frag` bytes of
plaintext. -/
structure Fluent (tag frag : Nat) (e : Engine) : Prop where
  reliable : Reliable e
  tag : e.profile.tag = tag
  pos : 0 < e.profile.frag
  frag : e.profile.frag ≤ frag

theorem Fluent.of_profile {e' : Engine} (hp : e'.profile = e.profile) (h : Fluent tag frag e) : Fluent tag frag e' :=
  ⟨(congrArg Profile.faults hp).trans h.reliable, by rw [hp, h.tag], by rw [hp]; exact h.pos, by rw [hp]; exact h.frag⟩

/-- The plaintext of a row of records that end in `tag` bytes. -/
def unsealed (tag : Nat) (y : Bytes) : Bytes :=
  rest { profile := { isServer := true, tag, frag := 1 }, done := true } y

/-- What is ready is sent in its order, and only a push fails. -/
theorem drainIn_gives (k : Nat) (e : Engine) :
    Runs (drainIn (V := V) k e) c fun r ps c' =>
      c' = c ∧ e.out = sent ps ++ r.1.out ∧ ∀ f, r.2 = .error f → ∃ p ∈ ps, p.answer = .error f := by
  induction k generalizing e with
  | zero => exact (runs_done _).2 ⟨rfl, rfl, fun f hf => by cases hf⟩
  | succ k ih =>
    unfold drainIn
    split
    · exact (runs_done _).2 ⟨rfl, rfl, fun f hf => by cases hf⟩
    · rw [runs_bind, runs_push]
      intro x hx
      rcases x with f | _ | n
      · refine (runs_done _).2 ⟨rfl, rfl, ?_⟩
        rintro f' ⟨⟩
        exact ⟨_, List.mem_cons_self, rfl⟩
      · exact (runs_done _).2 ⟨rfl, rfl, fun f hf => by cases hf⟩
      · refine (ih { e with out := e.out.drop (n + 1) }).mono fun r qs c' h => ?_
        obtain ⟨hc, hout, hfails⟩ := h
        refine ⟨hc, ?_, fun f hf => ?_⟩
        · calc e.out = e.out.take (n + 1) ++ e.out.drop (n + 1) := (List.take_append_drop _ _).symm
            _ = e.out.take (n + 1) ++ (sent qs ++ r.1.out) := congrArg _ hout
            _ = sent (⟨e.out, .ok (n + 1)⟩ :: qs) ++ r.1.out := (List.append_assoc ..).symm
        · obtain ⟨p, hp, hpf⟩ := hfails f hf
          exact ⟨p, List.mem_cons_of_mem _ hp, hpf⟩

/-- What is encrypted is a row of records that holds what was given. -/
theorem unsealed_sealed (h : Fluent tag frag e) (hsize : frag + tag < 2 ^ 16) (data : Bytes) :
    unsealed tag (sealed e.profile.frag e.profile.tag data.length data) = data := by
  obtain ⟨ds, hs, hflat, hds⟩ := sealed_eq h.pos data.length data (Nat.le_refl _)
  have hflow : Flow tag e.profile.frag (ds.flatMap (piece tag)) ds := ⟨rfl, hds⟩
  have hsize' : e.profile.frag + tag < 2 ^ 16 := Nat.lt_of_le_of_lt (Nat.add_le_add_right h.frag tag) hsize
  rw [h.tag, hs, unsealed, rest_flow ⟨rfl, rfl, rfl, rfl, rfl, Nat.one_pos, h.pos⟩ hsize' hflow, hflat]

/-- **A toy engine encrypts data as a whole or not at all**, when no failure is planned for it, and a record is short
enough for its header. -/
theorem seals (hsize : frag + tag < 2 ^ 16) :
    Seals (Toy.ops (V := V)) (Fluent tag frag) (·.out) (unsealed tag) where
  flush := by
    intro e e' c c' ps r hg hw
    have hruns : Runs (Toy.flush (V := V) e) c fun r ps c' =>
        c' = c ∧ e.out = sent ps ++ r.1.out ∧ ∀ f, r.2 = .error f → ∃ p ∈ ps, p.answer = .error f := by
      unfold Toy.flush
      dsimp only
      rw [hg.reliable.error?]
      exact drainIn_gives _ { e with flushes := e.flushes + 1 }
    exact hruns _ _ _ hw
  taken := by
    intro e data hg _
    refine ⟨_, unsealed_sealed hg hsize data, ?_⟩
    show (Toy.encrypt e data).1.out = _
    unfold Toy.encrypt
    dsimp only
    rw [hg.reliable.failure?]
    rfl
  refused := by
    intro e data hg hne
    exact absurd (encrypt_holds hg.reliable data).2 hne

/-- It keeps what it has to send. -/
theorem retains_fluent : Retains (Toy.ops (V := V)) (Fluent tag frag) :=
  retains_of Fluent.reliable Fluent.of_profile

end Toy

/-- A client writes when there is no room, and what it writes next is refused twice. Then there is room. -/
def Toy.pressed : List (((r : Layer.Req Toy.host) → r.Ans) × List Method) :=
  [(Toy.obliging, Toy.exchange.take 1),
    (Toy.full, [.op (.write [104, 105] .copy), .op (.write [104, 111] .copy), .op (.write [104, 111] .copy)]),
    (Toy.obliging, [.op (.write [104, 111] .copy)])]

theorem Life.writes_whole_pressed : ∃ past tries c l₁ y,
    (Toy.staged Toy.pressed Toy.client).1 = past ++ (tries ++ [c]) ∧ tries.length = 2 ∧
      Toy.unsealed 8 y = [104, 111] ∧
        Layer.Puts (H := Toy.host) (·.out) Toy.below l₁ (deeds (tries.flatMap (·.trace)) ++ deeds c.trace) (some y)
          c.after := by
  have hlife := Toy.staged_life Toy.pressed Toy.client (by decide +kernel) (by decide +kernel)
  have hseen : (Toy.staged Toy.pressed Toy.client).1.map (fun c => (c.blocked, c.write?, c.drawsNone)) =
      [(false, none, true), (false, some ([104, 105], .ok ()), true), (true, some ([104, 111], .error .wouldBlock), true),
        (true, some ([104, 111], .error .wouldBlock), true), (false, some ([104, 111], .ok ()), true)] := by decide +kernel
  generalize Toy.staged Toy.pressed Toy.client = r at *
  simp only [List.map_eq_cons_iff, List.map_eq_nil_iff] at hseen
  obtain ⟨a, _, hr, ha, w, _, rfl, hw, t₁, _, rfl, ht₁, t₂, _, rfl, ht₂, c, _, rfl, hc, rfl⟩ := hseen
  simp only [Prod.mk.injEq] at ha hw ht₁ ht₂ hc
  have hdraws : ∀ x ∈ r.1, x.drawsNone = true := by simp [hr, ha, hw, ht₁, ht₂, hc]
  have hall := Life.writes_whole hlife (Toy.seals (by decide : 16384 + 8 < 2 ^ 16)) Toy.retains_fluent
    (by rintro s ⟨⟩; exact .ofEngine _) (by rintro s ⟨⟩; exact ⟨rfl, rfl, by decide, Nat.le_refl _⟩)
    fun x hx => .of_none (hdraws x hx)
  obtain ⟨l₁, y, -, hy, hput⟩ := hall.2 [a, w] [t₁, t₂] c [] [104, 111] hr (by simp [ht₁, ht₂]) (by simp) hc.2.1
  exact ⟨[a, w], [t₁, t₂], c, l₁, y, hr, rfl, hy, hput⟩

/-- Every request of a layer succeeds, but the connection below refuses whatever is written to it. -/
def Toy.grudging : (r : Layer.Req Toy.host) → r.Ans
  | .ask _ (.write _ _) => .error .outOfMemory
  | r => Toy.obliging r

/-- A client writes when the connection below refuses it, and then writes the same again. -/
def Toy.repeated : List (((r : Layer.Req Toy.host) → r.Ans) × List Method) :=
  [(Toy.obliging, Toy.exchange.take 1), (Toy.grudging, [.op (.write [104, 105] .copy)]),
    (Toy.obliging, [.op (.write [104, 105] .copy)])]

/-- What the server's receiver is offered, and takes, when all that a client has sent arrives at once. -/
def Toy.heard (h : List (Call Toy.host)) : List Happening :=
  (played (Toy.ops (V := Unit)) Toy.me Toy.obliging
    [.op (.lower (.recv (outgoing Toy.below (h.flatMap (·.trace))))), .settled (.ok ()), .settled (.ok ())]
    (Toy.server [])).1.flatMap fun c => handed (c.after.phase = .failed) c.trace

/-- The first write is refused, and the peer is offered its data all the same: so twice when it is written again. -/
theorem Life.writes_twice :
    Life (H := Toy.host) (Toy.ops (V := Unit)) Toy.below Toy.me Toy.client
      (Toy.staged Toy.repeated Toy.client).1 (Toy.staged Toy.repeated Toy.client).2 ∧
    (Toy.staged Toy.repeated Toy.client).1.map (fun c => (c.before.phase, c.write?)) =
      [(.handshaking, none), (.established, some ([104, 105], .error .outOfMemory)),
        (.established, some ([104, 105], .ok ()))] ∧
    Toy.heard (Toy.staged Toy.repeated Toy.client).1 = [.offers [104, 105], .offers [104, 105]] := by
  refine ⟨Toy.staged_life _ _ (by decide +kernel) (by decide +kernel), by decide +kernel, by decide +kernel⟩

end Tls

end Conduit
