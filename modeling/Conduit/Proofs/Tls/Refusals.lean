import Conduit.Proofs.Tls.Inbound
import Conduit.Proofs.Tls.Window
import Mathlib.Data.List.Basic

/-!
# Ends that are refused

The peer is told that no more will come before the connection below is asked for its end. When that is refused, the layer
is what it was, but the peer has been told. It is told once: whatever is refused afterwards is as if it had not been
asked for.

* `Tells`: the peer is told, unless it was told already, or there is nobody to tell.
* `Rebuffs`: what a layer does whose end is refused.
* `Layer.Spares`: what a refused end leaves of a layer.
* `Life.refused`: **refused ends in a life of a layer.**
-/

namespace Conduit

open Layer Layer.Act Secure

namespace Tls

namespace Layer

variable {S E : Type}

/-- Whether no session has yet to tell its peer that no more will come. -/
def Told (l : Layer S E) : Prop := ∀ s, l.session = some s → s.closeNotifySent = true

/-- What a refused end leaves of a layer: all but the engine of its session, the ciphertext that this has not taken, and
the mark that the peer was told. -/
structure Spares (l l' : Layer S E) : Prop where
  shell : l' = { l with session := l'.session }
  lives : l'.session.isSome = l.session.isSome
  held : ∀ s s', l.session = some s → l'.session = some s' →
    s' = { s with
      engine := s'.engine
      rx := s'.rx
      bytesRead := s'.bytesRead
      closeNotifySent := s'.closeNotifySent }

theorem Spares.refl (l : Layer S E) : l.Spares l := by
  refine ⟨rfl, rfl, fun s s' hs hs' => ?_⟩
  cases hs.symm.trans hs'
  rfl

end Layer

variable {H : Host} {ops : EngineOps H.Engine H.Shared} {b me : Handle} {l₀ l l' : Layer H.Source H.Engine}
  {d d' : Trace H}

/-! ## The notice -/

/-- The peer is told that no more will come, unless it was told already, or there is no session that could. -/
inductive Tells (ops : EngineOps H.Engine H.Shared) (b : Handle) :
    Layer H.Source H.Engine → Trace H → Layer H.Source H.Engine → Prop
  | not {l : Layer H.Source H.Engine} (h : l.phase = .established → l.Told) : Tells ops b l [] l
  | now {l : Layer H.Source H.Engine} {s s' : Session H.Engine} {r : Except Fault Bool} {u v : Trace H}
      (hp : l.phase = .established) (hs : l.session = some s) (hn : s.closeNotifySent = false)
      (hd : Drives b (s.notified (ops.closeNotify s.engine)) (ops.flush (ops.closeNotify s.engine)) r u s')
      (hv : v = [] ∨ ∃ x, v = [⟨.ask b .output, x⟩]) : Tells ops b l (u ++ v) (l.holding s')

theorem sendCloseNotify_tells (hl : l.Sound) {post : Unit → Trace H → Layer H.Source H.Engine → Prop}
    (h : ∀ d l', Tells ops b l d l' → post () d l') : Does b (sendCloseNotify ops me) l post := by
  unfold sendCloseNotify
  simp only [does_bind, does_get]
  split
  · rename_i s hp hs
    split
    · rename_i hn
      rw [does_pure]
      refine h _ _ (.not fun _ s' hs' => ?_)
      cases hs.symm.trans hs'
      exact hn
    · rename_i hn
      simp only [does_bind, does_setSession]
      refine flush_does (.holding ((hl s hs).notified _)) (fun hnone => by cases hnone) fun s₁ s' r u hs₁ hd v hv₁ hv₂ => ?_
      cases hs₁
      have hv : v = [] ∨ ∃ x, v = [⟨.ask b .output, x⟩] := by
        cases r with
        | error f => exact .inl (hv₁ f rfl)
        | ok c => exact .inr (hv₂ c rfl)
      have htold : post () (u ++ v) ((l.holding (s.notified (ops.closeNotify s.engine))).holding s') :=
        h _ _ (.now hp hs (by simpa using hn) hd hv)
      cases r with
      | ok c => simpa using htold
      | error f => simpa using htold
  · rename_i hne
    rw [does_pure]
    exact h _ _ (.not fun hp s hs => (hne s hp hs).elim)

theorem Tells.spares (h : Tells ops b l d l') : l.Spares l' := by
  cases h with
  | not => exact .refl l
  | @now s s' r u v hp hs hn hd hv =>
    refine ⟨rfl, by rw [hs]; rfl, fun s₀ s₁ hs₀ hs₁ => ?_⟩
    cases hs.symm.trans hs₀
    cases hs₁
    cases hd with
    | intro => rfl

/-- Then it has been told. -/
theorem Tells.told (h : Tells ops b l d l') (hp : l.phase = .established) : l'.Told := by
  cases h with
  | not h => exact h hp
  | now hp hs hn hd hv =>
    rintro s' ⟨⟩
    cases hd with
    | intro => rfl

theorem Tells.once (h : Tells ops b l d l') (hl : l.Told) : d = [] ∧ l' = l := by
  cases h with
  | not => exact ⟨rfl, rfl⟩
  | now hp hs hn =>
    rw [hl _ hs] at hn
    cases hn

/-! ## Refusals -/

/-- The request for the end of the connection below, or of its write half, when it is refused. -/
inductive Refusal (b : Handle) : Exchange (io H) → Prop
  | close (f : Fault) : Refusal b ⟨.ask b .close, .error f⟩
  | shutdown (f : Fault) : Refusal b ⟨.ask b (.shutdown .write), .error f⟩

/-- What a layer does whose end is refused: the peer is told, and then the connection below refuses. -/
inductive Rebuffs (ops : EngineOps H.Engine H.Shared) (b : Handle) :
    Layer H.Source H.Engine → Trace H → Layer H.Source H.Engine → Prop
  | intro {l l' : Layer H.Source H.Engine} {u : Trace H} {x : Exchange (io H)} (hu : Tells ops b l u l')
      (hx : Refusal b x) : Rebuffs ops b l (u ++ [x]) l'

theorem Rebuffs.spares (h : Rebuffs ops b l d l') : l.Spares l' := by
  cases h with
  | intro hu => exact hu.spares

theorem Rebuffs.told (h : Rebuffs ops b l d l') (hp : l.phase = .established) : l'.Told := by
  cases h with
  | intro hu => exact hu.told hp

/-- Whoever was told is not told again. -/
theorem Rebuffs.once (h : Rebuffs ops b l d l') (hl : l.Told) : l' = l ∧ ∃ x, d = [x] ∧ Refusal b x := by
  cases h with
  | intro hu hx =>
    obtain ⟨rfl, rfl⟩ := hu.once hl
    exact ⟨rfl, _, rfl, hx⟩

/-- Whether the end of the connection, or of its write half, was asked for and refused. -/
def Call.refused : Call H → Bool
  | ⟨_, .op .close, .error _, _, _⟩ | ⟨_, .op (.shutdown .both), .error _, _, _⟩
  | ⟨_, .op (.shutdown .write), .error _, _, _⟩ => true
  | _ => false

theorem close_rebuffs (hl : l.Sound) :
    Does b (close ops me) l fun r d l' => ∀ f, r = .error f → Rebuffs ops b l d l' := by
  unfold close
  simp only [does_bind]
  refine sendCloseNotify_tells hl fun u l₁ hu => ?_
  simp only [does_bind, does_inner, does_ask]
  intro x
  cases x with
  | error f =>
    -- by then the peer has been told
    simpa using Rebuffs.intro hu (.close f)
  | ok _ => simp

theorem shutdownWrite_rebuffs (hl : l.Sound) :
    Does b (shutdownWrite ops me) l fun r d l' => ∀ f, r = .error f → Rebuffs ops b l d l' := by
  unfold shutdownWrite
  simp only [does_bind, does_get]
  split
  · simp
  · simp only [does_bind]
    refine sendCloseNotify_tells hl fun u l₁ hu => ?_
    simp only [does_bind, does_inner, does_ask]
    intro x
    cases x with
    | error f => simpa using Rebuffs.intro hu (.shutdown f)
    | ok _ =>
      simp only [does_bind, does_modify, does_get]
      split
      · simp only [does_bind]
        exact afterRxClosed_does (by simp)
      · simp

theorem call_rebuffs {m : Method} {r : m.Reply} {t : Trace H} (hy : (Secure.step ops me m l).Yields t (r, l'))
    (hb : Over b t) (hl : l.Sound) (hr : (⟨l, m, r, t, l'⟩ : Call H).refused = true) : Rebuffs ops b l (deeds t) l' := by
  unfold Call.refused at hr
  split at hr
  · rename_i heq
    cases heq
    exact close_rebuffs hl t _ l' hy hb _ rfl
  · rename_i heq
    cases heq
    exact close_rebuffs hl t _ l' hy hb _ rfl
  · rename_i heq
    cases heq
    exact shutdownWrite_rebuffs hl t _ l' hy hb _ rfl
  · cases hr

/-! ## Whoever was told -/

theorem Layer.Told.of_none (h : l.session = none) : l.Told := by
  intro s hs
  rw [h] at hs
  cases hs

theorem Layer.Told.holding {s : Session H.Engine} (h : s.closeNotifySent = true) : (l.holding s).Told := by
  rintro s' ⟨⟩
  exact h

theorem Drives.closeNotifySent {α : Type} {s s' : Session H.Engine} {p : EngineAct H.Shared (H.Engine × α)} {a : α}
    (h : Drives b s p a d s') : s'.closeNotifySent = s.closeNotifySent := by
  cases h with
  | intro => rfl

theorem Completes.closeNotifySent {s s' : Session H.Engine} {n : Nat} (h : Completes b s n d s') :
    s'.closeNotifySent = s.closeNotifySent := by
  cases h with
  | partly | fully => rfl

theorem Opens.told {s s' : Session H.Engine} {r : Except Fault Decrypted} (h : Opens ops b l s r d s') (hl : l.Told) :
    s'.closeNotifySent = true := by
  cases h with
  | intro hp hr hs hf ha n hd => exact hd.closeNotifySent.trans (hl _ hs)

theorem Layer.Told.ended (h : l.Told) : l.ended.Told := fun s hs => h s (session_of_ended hs)

/-- No move takes the notice back. -/
theorem Move.told (h : Move ops b l d l') (hl : l.Told) : l'.Told := by
  cases h with
  | idle | connecting => exact hl
  | unshaken | unopened => exact .of_none rfl
  | shaken hp hs hd =>
    rintro s ⟨⟩
    exact hd.closeNotifySent.trans (hl _ hs)
  | sealed data sent hs => exact .holding (hl _ hs :)
  | flushed hs hd => exact .holding (hd.closeNotifySent.trans (hl _ hs))
  | offered hp hr hs => exact .holding (hl _ hs :)
  | opened ho hv => exact .holding (hv.closeNotifySent.trans (ho.told hl))
  | stalled ho hr hv => exact .holding (hv.closeNotifySent.trans (ho.told hl))
  | drained ho hr hv => exact (Layer.Told.holding (hv.closeNotifySent.trans (ho.told hl))).ended
  | @finished s s' u v ho hv => exact (Layer.Told.holding (s := s'.recordDone) (ho.told hl)).ended

theorem Moves.told (h : Moves ops b l d l') (hl : l.Told) : l'.Told := by
  induction h with
  | refl => exact hl
  | step h _ ih => exact ih (h.told hl)

theorem Enter.told {m : Method} (h : Enter b m l d l') (hl : l.Told) : l'.Told := by
  cases h with
  | quiet | dropped | finished | unfinished | unasked | unrecved => exact hl
  | arrived hs | taken hs | refused hs => exact .holding (hl _ hs :)
  | recved hp hs => exact .holding (hl _ hs :)
  | cut | lost => exact .of_none rfl

/-- Nor does any turn in which no engine is drawn. -/
theorem Turns.told {m : Method} (h : Turns ops b m l d l') (hl : l.Told)
    (hd : ∀ config name x, ⟨.newEngine config name, x⟩ ∉ d) : l'.Told := by
  cases h with
  | moved he hm => exact hm.told (he.told hl)
  | drawn => exact absurd List.mem_cons_self (hd _ _ _)
  | listened => exact .of_none rfl

theorem Notifies.told (h : Notifies ops b l d l') (hl : l.Told) : l'.Told := by
  cases h with
  | already => exact hl
  | now hs hm => exact hm.told (.holding rfl)

theorem Leaves.told {m : Method} {r : m.Reply} (h : Leaves ops b m r l d l') (hl : l.Told) : l'.Told := by
  cases h with
  | aborted | freed | closed => exact .of_none rfl
  | unclosed ho hn => exact hn.told hl
  | silent | undeafened => exact hl
  | unsilenced hn => exact hn.told hl
  | silenced hn => exact fun s hs => hn.told hl s (Layer.session_of_silenced hs)
  | deafened =>
    intro s hs
    obtain ⟨s₀, hs₀, rfl⟩ := Layer.session_of_deafened hs
    exact (hl _ hs₀ :)

theorem call_told {m : Method} {r : m.Reply} {t : Trace H} (hy : (Secure.step ops me m l).Yields t (r, l'))
    (hb : Over b t) (hs : l.Sound) (hl : l.Told) (hd : (⟨l, m, r, t, l'⟩ : Call H).drawsNone = true) : l'.Told := by
  by_cases hm : m.leaves = true
  · exact (Call.leaves hy hb hs hm).told hl
  · exact (Call.turns hy hb hs (by simpa using hm)).told hl (Call.not_drawn_deeds hd)

theorem Life.told {h : List (Call H)} (hl : Life ops b me l₀ h l) (hs : l₀.Sound) (h₀ : l₀.Told)
    (hd : ∀ c ∈ h, c.drawsNone = true) : l.Told := by
  induction hl with
  | start => exact h₀
  | call hl _ hy hb ih =>
    exact call_told hy hb (hl.sound hs) (ih fun c hc => hd c (by simp [hc])) (hd _ (by simp))

/-! ## Lives -/

/-- **A refused end leaves the connection as it was, but the peer has been told.** That is all that is sent, and of what
the layer holds only the session's engine has changed. Once the peer was told, and as long as no other engine is drawn, an
end that is refused changes nothing: nothing is sent, and the life goes on as if the call had not been made. -/
theorem Life.refused {h : List (Call H)} (hl : Life ops b me l₀ h l) (hs₀ : l₀.Sound) :
    (∀ past c future, h = past ++ c :: future → c.refused = true →
      Rebuffs ops b c.before (deeds c.trace) c.after ∧ c.before.Spares c.after) ∧
    ∀ older p between c future, h = (older ++ p :: between) ++ c :: future → p.refused = true →
      p.before.phase = .established → (∀ q ∈ between, q.drawsNone = true) → c.refused = true →
        c.after = c.before ∧ (∃ x, deeds c.trace = [x] ∧ Refusal b x) ∧
          Life ops b me l₀ ((older ++ p :: between) ++ future) l := by
  -- what there is to say of any call that was refused
  have hcall : ∀ past c future, h = past ++ c :: future → c.refused = true →
      c.before.Sound ∧ Rebuffs ops b c.before (deeds c.trace) c.after := by
    rintro past c future rfl hc
    have ham := hl.amid
    have hs := ham.before.sound hs₀
    exact ⟨hs, call_rebuffs ham.yields ham.around hs hc⟩
  refine ⟨fun past c future heq hc => ?_, fun older p between c future heq hp hest hdraw hc => ?_⟩
  · have hr := (hcall past c future heq hc).2
    exact ⟨hr, hr.spares⟩
  · have hrp := (hcall older p (between ++ c :: future) (by simpa using heq) hp).2
    have hrc := (hcall (older ++ p :: between) c future heq hc).2
    subst heq
    have ham := hl.amid
    -- the peer was told at the first refusal, and that has not been taken back
    have hfirst := ham.before.amid
    have htold : c.before.Told := by
      refine hfirst.after.told ?_ (hrp.told hest) hdraw
      exact Call.sound hfirst.yields hfirst.around (hfirst.before.sound hs₀)
    obtain ⟨hsame, hasked⟩ := hrc.once htold
    refine ⟨hsame, hasked, ham.before.append ham.stays ?_⟩
    rw [← hsame]
    exact ham.after

/-- Every request of a layer succeeds, but the one for the end of the connection below. -/
def Toy.reluctant : (r : Layer.Req Toy.host) → r.Ans
  | .ask _ .close => .error .outOfMemory
  | r => Toy.obliging r

/-- The calls of a client that shakes hands, and what they leave of it, when the connection below lets itself not be
closed. -/
def Toy.clinging (ms : List Method) : List (Call Toy.host) × Layer Toy.Profile Toy.Engine :=
  played (Toy.ops (V := Unit)) Toy.me Toy.reluctant (Toy.exchange.take 1 ++ ms) Toy.client

theorem Toy.clinging_life (ms : List Method) (hf : ∀ c ∈ (Toy.clinging ms).1, frees c.trace = false) :
    Life (H := Toy.host) (Toy.ops (V := Unit)) Toy.below Toy.me Toy.client (Toy.clinging ms).1 (Toy.clinging ms).2 :=
  List.nil_append (Toy.clinging ms).1 ▸ Life.of_played rfl .start (by simp) hf

theorem Life.refused_twice : ∃ older p c, (Toy.clinging [.op .close, .op .close]).1 = (older ++ [p]) ++ [c] ∧
    Rebuffs (Toy.ops (V := Unit)) Toy.below p.before (deeds p.trace) p.after ∧ c.after = c.before ∧
      Life (H := Toy.host) (Toy.ops (V := Unit)) Toy.below Toy.me Toy.client (older ++ [p])
        (Toy.clinging [.op .close, .op .close]).2 := by
  have hlife := Toy.clinging_life [.op .close, .op .close] (by decide +kernel)
  have hthree : (Toy.clinging [.op .close, .op .close]).1.length = 3 := by decide +kernel
  have hseen : (Toy.clinging [.op .close, .op .close]).1.map (fun c => (c.before.phase, c.refused)) =
      [(.handshaking, false), (.established, true), (.established, true)] := by decide +kernel
  obtain ⟨a, p, c, hall⟩ := List.length_eq_three.1 hthree
  rw [hall] at hseen
  simp only [List.map_cons, List.map_nil, List.cons.injEq, Prod.mk.injEq, and_true] at hseen
  obtain ⟨-, ⟨hest, hp⟩, -, hc⟩ := hseen
  obtain ⟨hfirst, hagain⟩ := Life.refused hlife (by rintro s ⟨⟩; exact .ofEngine _)
  obtain ⟨hrebuffs, -⟩ := hfirst [a] p [c] hall hp
  obtain ⟨hsame, -, hwithout⟩ := hagain [a] p [] c [] hall hp hest (by simp) hc
  exact ⟨[a], p, c, hall, hrebuffs, hsame, by simpa using hwithout⟩

/-- What the server's receiver is told when all that a client has sent arrives at once. -/
def Toy.understood (h : List (Call Toy.host)) : List Happening :=
  (played (Toy.ops (V := Unit)) Toy.me Toy.obliging
    [.op (.lower (.recv (outgoing Toy.below (h.flatMap (·.trace)))))] (Toy.server [])).1.flatMap fun c =>
      handed (c.after.phase = .failed) c.trace

/-- The peer sees the end of the stream although the end was refused, and what is written afterwards does not come
through. Without the call that was refused it does. -/
theorem Life.refused_heard :
    Life (H := Toy.host) (Toy.ops (V := Unit)) Toy.below Toy.me Toy.client
      (Toy.clinging [.op .close, .op (.write [104, 105] .copy)]).1
      (Toy.clinging [.op .close, .op (.write [104, 105] .copy)]).2 ∧
    (Toy.clinging [.op .close, .op (.write [104, 105] .copy)]).1.map (fun c => (c.before.phase, c.refused)) =
      [(.handshaking, false), (.established, true), (.established, false)] ∧
    Toy.understood (Toy.clinging [.op .close, .op (.write [104, 105] .copy)]).1 = [.ends false] ∧
    Toy.understood (Toy.clinging [.op (.write [104, 105] .copy)]).1 = [.offers [104, 105]] := by
  refine ⟨Toy.clinging_life _ (by decide +kernel), by decide +kernel, by decide +kernel, by decide +kernel⟩

end Tls

end Conduit
