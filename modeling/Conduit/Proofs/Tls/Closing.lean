import Conduit.Proofs.Tls.Life

/-!
# How a TLS layer leaves

The methods that `Turns` says nothing of: those that end a connection or one of its halves. The notice that no more
will be sent may be refused for want of room, and so may the end of the connection below; then the layer stays as it is,
but for what was sent.

* `Notifies`: the peer is told, once, that no more will come.
* `Leaves`: what a method does that ends the connection or a half of it.
* `leave_does`: **a method that ends a connection leaves**, and does nothing else.
* `Life.sound`: a layer is sound all its life.
-/

namespace Conduit

open Layer Layer.Act Secure

namespace Tls

namespace Session

variable {E : Type}

/-- The notice that no more will be sent is queued. -/
def notified (s : Session E) (e : E) : Session E := { s with closeNotifySent := true, engine := e }

/-- Nothing of what arrived is held any more. -/
def emptied (s : Session E) : Session E :=
  { s with
    inFlight := none
    passedUnrecved := s.passedUnrecved - s.inFlight.getD 0
    rx := .empty
    rxApp := .empty
    bytesRead := 0
    bytesAppl := 0 }

/-- All that is held of what arrived: ciphertext, plaintext, and what a record has beyond its plaintext. -/
def holds (s : Session E) : Nat := s.rx.size + s.rxApp.size + (s.bytesRead - s.bytesAppl)

theorem Sound.notified {s : Session E} (h : s.Sound) (e : E) : (s.notified e).Sound := ⟨h.rx, h.rxApp, h.inFlight⟩

theorem sound_emptied (s : Session E) : s.emptied.Sound :=
  ⟨Segments.wellFormed_empty, Segments.wellFormed_empty, fun _ hn => by cases hn⟩

end Session

namespace Layer

variable {S E : Type}

/-- The connection is closed. -/
def gone (l : Layer S E) : Layer S E := { l with session := none, txClosed := true, rxState := .closed }

/-- The write half is closed. -/
def silenced (l : Layer S E) : Layer S E :=
  { l with txClosed := true, session := if l.rxState = .closed then none else l.session }

/-- The read half is closed. -/
def deafened (l : Layer S E) : Layer S E :=
  { l with rxState := .closed, session := if l.txClosed then none else l.session.map Session.emptied }

theorem session_of_silenced {l : Layer S E} {s : Session E} (h : l.silenced.session = some s) : l.session = some s := by
  unfold Layer.silenced at h
  simp only at h
  split at h
  · cases h
  · exact h

theorem session_of_deafened {l : Layer S E} {s : Session E} (h : l.deafened.session = some s) :
    ∃ s₀, l.session = some s₀ ∧ s = s₀.emptied := by
  unfold Layer.deafened at h
  simp only at h
  split at h
  · cases h
  · obtain ⟨s₀, hs₀, rfl⟩ := Option.map_eq_some_iff.1 h
    exact ⟨s₀, hs₀, rfl⟩

theorem Sound.silenced {l : Layer S E} (h : l.Sound) : l.silenced.Sound := fun s hs => h s (session_of_silenced hs)

theorem sound_deafened (l : Layer S E) : l.deafened.Sound := by
  intro s hs
  obtain ⟨s₀, -, rfl⟩ := session_of_deafened hs
  exact s₀.sound_emptied

end Layer

variable {H : Host} (ops : EngineOps H.Engine H.Shared)

/-- The peer is told, once, that no more will come. -/
inductive Notifies (b : Handle) : Layer H.Source H.Engine → Trace H → Layer H.Source H.Engine → Prop
  | already (l : Layer H.Source H.Engine) : Notifies b l [] l
  | now {l l' : Layer H.Source H.Engine} {s : Session H.Engine} {d : Trace H} (hs : l.session = some s)
      (hm : Moves ops b (l.holding (s.notified (ops.closeNotify s.engine))) d l') : Notifies b l d l'

/-- What a method does that ends the connection or a half of it. -/
inductive Leaves (b : Handle) : (m : Method) → m.Reply → Layer H.Source H.Engine → Trace H → Layer H.Source H.Engine →
    Prop
  | aborted (l : Layer H.Source H.Engine) :
      Leaves b (.op .abort) () l [⟨.ask b .abort, ()⟩] { l with session := none }
  | freed (l : Layer H.Source H.Engine) : Leaves b .dealloc () l [] { l with session := none }
  | closed {o : Op} (ho : o = .close ∨ o = .shutdown .both) {x : o.Reply} {l l' : Layer H.Source H.Engine}
      {d : Trace H} (hn : Notifies ops b l d l') :
      Leaves b (.op o) x l (d ++ [⟨.ask b .close, .ok ()⟩, ⟨.release, ()⟩]) l'.gone
  | unclosed {o : Op} (ho : o = .close ∨ o = .shutdown .both) {x : o.Reply} {l l' : Layer H.Source H.Engine}
      {d : Trace H} {f : Fault} (hn : Notifies ops b l d l') :
      Leaves b (.op o) x l (d ++ [⟨.ask b .close, .error f⟩]) l'
  | silent {l : Layer H.Source H.Engine} (h : l.txClosed = true) : Leaves b (.op (.shutdown .write)) (.ok ()) l [] l
  | silenced {l l' : Layer H.Source H.Engine} {d : Trace H} (hn : Notifies ops b l d l') :
      Leaves b (.op (.shutdown .write)) (.ok ()) l (d ++ [⟨.ask b (.shutdown .write), .ok ()⟩]) l'.silenced
  | unsilenced {l l' : Layer H.Source H.Engine} {d : Trace H} {f : Fault} (hn : Notifies ops b l d l') :
      Leaves b (.op (.shutdown .write)) (.error f) l (d ++ [⟨.ask b (.shutdown .write), .error f⟩]) l'
  | deafened {l : Layer H.Source H.Engine} {u : Trace H} (hu : Acks b ((l.session.map Session.holds).getD 0) u) :
      Leaves b (.op (.shutdown .read)) (.ok ()) l (⟨.ask b (.shutdown .read), .ok ()⟩ :: u) l.deafened
  | undeafened {l : Layer H.Source H.Engine} {f : Fault} :
      Leaves b (.op (.shutdown .read)) (.error f) l [⟨.ask b (.shutdown .read), .error f⟩] l

variable {ops} {b me : Handle} {l l' : Layer H.Source H.Engine} {d : Trace H}

theorem Notifies.sound (h : Notifies ops b l d l') (hl : l.Sound) : l'.Sound := by
  cases h with
  | already => exact hl
  | now hs hm => exact hm.sound (.holding ((hl _ hs).notified _))

theorem Leaves.sound {m : Method} {r : m.Reply} (h : Leaves ops b m r l d l') (hl : l.Sound) : l'.Sound := by
  cases h with
  | aborted | freed | closed => exact .of_none rfl
  | unclosed ho hn => exact hn.sound hl
  | silent | undeafened => exact hl
  | silenced hn => exact (hn.sound hl).silenced
  | unsilenced hn => exact hn.sound hl
  | deafened => exact l.sound_deafened

theorem Notifies.config (h : Notifies ops b l d l') : l'.config = l.config := by
  cases h with
  | already => rfl
  | now hs hm => exact hm.config

theorem Leaves.config {m : Method} {r : m.Reply} (h : Leaves ops b m r l d l') : l'.config = l.config := by
  cases h with
  | closed _ hn | unclosed _ hn | silenced hn | unsilenced hn => exact hn.config
  | _ => rfl

/-! ## The methods -/

theorem sendCloseNotify_does (hl : l.Sound) {post : Unit → Trace H → Layer H.Source H.Engine → Prop}
    (h : ∀ d l', Notifies ops b l d l' → post () d l') : Does b (sendCloseNotify ops me) l post := by
  have h₀ := h _ _ (.already l)
  unfold sendCloseNotify
  simp only [does_bind, does_get]
  split
  · rename_i s _ hs
    split
    · simpa using h₀
    · simp only [does_bind, does_setSession]
      refine flush_moves (.holding ((hl s hs).notified _)) fun r d l' hm => ?_
      have hn := h _ _ (.now hs hm)
      cases r with
      | ok c => simpa using hn
      | error f => simpa using hn
  · simpa using h₀

theorem close_does {o : Op} (ho : o = .close ∨ o = .shutdown .both) (hx : o.Reply = Outcome) (hl : l.Sound)
    {post : Outcome → Trace H → Layer H.Source H.Engine → Prop}
    (h : ∀ r d l', Leaves ops b (.op o) (cast hx.symm r) l d l' → post r d l') : Does b (close ops me) l post := by
  unfold close
  simp only [does_bind]
  refine sendCloseNotify_does hl fun d l' hn => ?_
  simp only [does_bind, does_inner, does_ask]
  intro x
  cases x with
  | error f =>
    simp only [does_pure, List.nil_append, List.append_nil]
    exact h _ _ _ (.unclosed ho hn)
  | ok _ =>
    simp only [does_bind, does_get, does_note, does_modify, does_release, does_pure, List.nil_append, List.append_nil]
    exact h _ _ _ (.closed ho hn)

/-- Once both halves are closed the session goes. -/
theorem afterRxClosed_does {post : Unit → Trace H → Layer H.Source H.Engine → Prop}
    (h : post () [] { l with session := if l.txClosed then none else l.session }) :
    Does b (afterRxClosed me) l post := by
  unfold afterRxClosed
  simp only [does_bind, does_get]
  split
  · rename_i hc
    simp only [Bool.and_eq_true] at hc
    simp only [does_bind, does_modify, does_note]
    simpa [hc.1] using h
  · rename_i hc
    have hsame : (if l.txClosed then none else l.session) = l.session := by
      by_cases ht : l.txClosed = true
      · have hn : l.session = none := by simpa [ht] using hc
        rw [if_pos ht, hn]
      · rw [if_neg ht]
    rw [hsame] at h
    simpa using h

theorem shutdownWrite_does (hl : l.Sound) {post : Outcome → Trace H → Layer H.Source H.Engine → Prop}
    (h : ∀ r d l', Leaves ops b (.op (.shutdown .write)) r l d l' → post r d l') :
    Does b (shutdownWrite ops me) l post := by
  unfold shutdownWrite
  simp only [does_bind, does_get]
  split
  · rename_i ht
    simpa using h _ _ _ (.silent ht)
  · simp only [does_bind]
    refine sendCloseNotify_does hl fun d l' hn => ?_
    simp only [does_bind, does_inner, does_ask]
    intro x
    cases x with
    | error f =>
      simp only [does_pure, List.nil_append, List.append_nil]
      exact h _ _ _ (.unsilenced hn)
    | ok _ =>
      have hs := h _ _ _ (.silenced hn)
      simp only [does_bind, does_modify, does_get]
      split
      · rename_i hr
        simp only [does_bind]
        refine afterRxClosed_does ?_
        simpa [Layer.silenced, hr] using hs
      · rename_i hr
        simpa [Layer.silenced, hr] using hs

theorem shutdownRead_does {post : Outcome → Trace H → Layer H.Source H.Engine → Prop}
    (h : ∀ r d l', Leaves ops b (.op (.shutdown .read)) r l d l' → post r d l') :
    Does b (shutdownRead me) l post := by
  unfold shutdownRead
  simp only [does_bind, does_inner, does_ask]
  intro x
  cases x with
  | error f => simpa using h _ _ _ .undeafened
  | ok _ =>
    -- what is left to do when all that was held is acknowledged
    have hend : ∀ u, Acks b ((l.session.map Session.holds).getD 0) u →
        Does b (do
          modify fun l => { l with rxState := .closed }
          afterRxClosed me
          pure (.ok ())) { l with session := l.session.map Session.emptied } fun a d l' =>
            post a (⟨.ask b (.shutdown .read), .ok ()⟩ :: (u ++ d)) l' := by
      intro u hu
      have hd := h _ _ _ (.deafened hu)
      simp only [does_bind, does_modify, does_pure]
      refine afterRxClosed_does ?_
      simpa [Layer.deafened] using hd
    simp only [does_bind, does_get]
    cases hs : l.session with
    | none =>
      simp only [hs, Option.map_none, Option.getD_none] at hend
      have hnone : { l with session := none } = l := by rw [← hs]
      have := hend [] .none
      rw [hnone] at this
      simpa using this
    | some s =>
      simp only [hs, Option.map_some, Option.getD_some] at hend
      simp only [does_bind, does_setSession, does_note]
      refine ackLower_does fun u hu => ?_
      have := hend u hu
      simpa [Session.emptied, Layer.holding] using this

/-- **A method that ends a connection leaves**, and does nothing else. -/
theorem leave_does {m : Method} (hm : m.leaves = true) (hl : l.Sound)
    {post : m.Reply → Trace H → Layer H.Source H.Engine → Prop}
    (h : ∀ r d l', Leaves ops b m r l d l' → post r d l') :
    Does (α := no_index m.Reply) b (Secure.step ops me m) l post := by
  cases m with
  | op o =>
    cases o with
    | abort =>
      show Does b (Secure.abort me) l post
      unfold Secure.abort
      simp only [does_bind, does_modify, does_inner, does_ask, does_note]
      intro x
      simpa using h _ _ _ (.aborted l)
    | close => exact close_does (.inl rfl) rfl hl h
    | shutdown dir =>
      cases dir with
      | read => exact shutdownRead_does h
      | write => exact shutdownWrite_does hl h
      | both => exact close_does (o := .shutdown .both) (.inr rfl) rfl hl h
    | _ => cases hm
  | settled v => cases hm
  | dealloc =>
    have hf := h _ _ _ (.freed l)
    show Does b (do
      if (← get).session.isSome then
        modify fun l => { l with session := none }
        note (.trace "tls session state dropped" [me.field])) l post
    simp only [does_bind, does_get]
    split
    · simpa using hf
    · rename_i hs
      have hnone : { l with session := none } = l := by
        have : l.session = none := by simpa using hs
        rw [← this]
      rw [hnone] at hf
      simpa using hf

/-- What a call is that ends the connection or a half of it. -/
theorem Call.leaves {m : Method} {r : m.Reply} {t : Trace H} (hy : (Secure.step ops me m l).Yields t (r, l'))
    (hb : Over b t) (hl : l.Sound) (hm : m.leaves = true) : Leaves ops b m r l (deeds t) l' :=
  leave_does hm hl (fun _ _ _ h => h) t r l' hy hb

theorem Call.sound {m : Method} {r : m.Reply} {t : Trace H} (hy : (Secure.step ops me m l).Yields t (r, l'))
    (hb : Over b t) (hl : l.Sound) : l'.Sound := by
  by_cases hm : m.leaves = true
  · exact (Call.leaves hy hb hl hm).sound hl
  · exact (Call.turns hy hb hl (by simpa using hm)).sound hl

theorem Call.config {m : Method} {r : m.Reply} {t : Trace H} (hy : (Secure.step ops me m l).Yields t (r, l'))
    (hb : Over b t) (hl : l.Sound) : l'.config = l.config := by
  by_cases hm : m.leaves = true
  · exact (Call.leaves hy hb hl hm).config
  · exact (Call.turns hy hb hl (by simpa using hm)).config

/-- A layer that began sound is sound all its life. -/
theorem Life.sound {h : List (Call H)} {l₀ : Layer H.Source H.Engine} (hl : Life ops b me l₀ h l) (h₀ : l₀.Sound) :
    l.Sound := by
  induction hl with
  | start => exact h₀
  | call _ _ hy hb ih => exact Call.sound hy hb ih

end Tls

end Conduit
