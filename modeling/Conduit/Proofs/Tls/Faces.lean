import Conduit.Proofs.Tls.Carries

/-!
# Two ends

Two TLS connections that understand each other, and what is on its way between them: in the engines, in the endpoints,
in the plain layers and in the sessions.

* `Faces`: both ends carry on, each with what the other has sent.
* `toHear`: the plaintext on its way from one end to the other.
* `Faces.settled`: **when nothing moves any more, nothing is on its way.**
-/

namespace Conduit

open Loopback

namespace Tls

variable {H : Host} {ops : EngineOps H.Engine H.Shared} {C : Coupling H.Engine} {o : Loopback.Options}
  {a a' b : Prop} {s s' t : Session H.Engine} {P P' Q : Bytes} {p p' q : Pcb}

/-- The plaintext that is on its way from an end with the session `s` over `p`, to an end with the session `t`, whose
plain layer holds `Q`. -/
def toHear (C : Coupling H.Engine) (s t : Session H.Engine) (Q : Bytes) (p : Pcb) : Bytes :=
  t.rxApp.toList ++ C.plain t.engine (C.going (t.rx.toList ++ Q) s p)

/-- Two ends with the sessions `s` and `t` over `p` and `q`, whose plain layers hold `P` and `Q`; `a` and `b` say
whether an event is on its way that lets them send. -/
structure Faces (ops : EngineOps H.Engine H.Shared) (C : Coupling H.Engine) (o : Loopback.Options) (a b : Prop)
    (s t : Session H.Engine) (P Q : Bytes) (p q : Pcb) : Prop where
  left : Carries ops C o t.engine (t.rx.toList ++ Q) (P ++ q.unsent.toList ++ C.out t.engine) P.length a s p
  right : Carries ops C o s.engine (s.rx.toList ++ P) (Q ++ p.unsent.toList ++ C.out s.engine) Q.length b t q
  /-- Neither has said that no more will come. -/
  leftOpen : ¬ C.parted t.engine (C.going (t.rx.toList ++ Q) s p)
  rightOpen : ¬ C.parted s.engine (C.going (s.rx.toList ++ P) t q)

theorem Faces.symm (h : Faces ops C o a b s t P Q p q) : Faces ops C o b a t s Q P q p :=
  ⟨h.right, h.left, h.rightOpen, h.leftOpen⟩

theorem Faces.mono {b' : Prop} (h : Faces ops C o a b s t P Q p q) (ha : a → a') (hb : b → b') :
    Faces ops C o a' b' s t P Q p q :=
  ⟨h.left.mono ha, h.right.mono hb, h.leftOpen, h.rightOpen⟩

/-- What comes to an end is what is going from the other. -/
theorem going_eq (C : Coupling H.Engine) (s t : Session H.Engine) (Q : Bytes) (p : Pcb) :
    C.going (t.rx.toList ++ Q) s p = t.rx.toList ++ (Q ++ p.unsent.toList ++ C.out s.engine) := by
  unfold Coupling.going
  simp only [List.append_assoc]

theorem coming_eq (C : Coupling H.Engine) (s t : Session H.Engine) (Q : Bytes) (p : Pcb) :
    C.coming (Q ++ p.unsent.toList ++ C.out s.engine) t = toHear C s t Q p := by
  unfold toHear Coupling.coming
  rw [going_eq]

/-- An end carries on with another peer, if they understand each other. -/
theorem Carries.facing {f f' : H.Engine} {far near far' near' : Bytes} {k : Nat} {due : Prop}
    (h : Carries ops C o f far near k due s p) (hj : C.joined s.engine f' (C.going far' s p) (s.rx.toList ++ near')) :
    Carries ops C o f' far' near' k due s p :=
  ⟨h.sound, h.unsent, h.isOpen, hj, h.moving, h.acked, h.owed, h.held⟩

/-- What one end sends anew changes nothing for the other, as long as they understand each other. -/
theorem Faces.left_carries (h : Faces ops C o a b s t P Q p q) (hC : Couples ops C)
    (hc : Carries ops C o t.engine (t.rx.toList ++ Q) (P' ++ q.unsent.toList ++ C.out t.engine) P'.length a' s' p')
    (ho : ¬ C.parted t.engine (C.going (t.rx.toList ++ Q) s' p'))
    (ho' : ¬ C.parted s'.engine (C.going (s'.rx.toList ++ P') t q)) :
    Faces ops C o a' b s' t P' Q p' q := by
  refine ⟨hc, h.right.facing ?_, ho, ho'⟩
  have := hC.symm hc.joined
  rw [going_eq] at this ⊢
  exact this

/-- An end that sends and receives the same as before. -/
theorem Faces.left_kept (h : Faces ops C o a b s t P Q p q) (hC : Couples ops C)
    (hk : Kept ops C o t.engine (t.rx.toList ++ Q) (P ++ q.unsent.toList ++ C.out t.engine) P.length a' s s' p p') :
    Faces ops C o a' b s' t P Q p' q ∧ toHear C s' t Q p' = toHear C s t Q p ∧
      toHear C t s' P q = toHear C t s P q := by
  refine ⟨h.left_carries hC hk.carries (by rw [hk.going]; exact h.leftOpen) ?_, ?_, ?_⟩
  · rw [going_eq, hk.parted, ← going_eq]
    exact h.rightOpen
  · unfold toHear
    rw [hk.going]
  · rw [← coming_eq, ← coming_eq, hk.coming]

/-- What the endpoint of one end sends, the plain layer of the other gets. -/
theorem Faces.sent {b' : Prop} {text : Bytes} {rest : Segments} (plan : List Nat) (n : Nat)
    (h : Faces ops C o a b s t [] [] p q) (hu : q.unsent.toList = text ++ rest.toList) (hw : rest.WellFormed)
    (hb : b') :
    Faces ops C o a b' s t text [] { p with received := p.received + text.length, segments := n }
        { q with unsent := rest, splitPlan := plan } ∧
      toHear C t s text { q with unsent := rest, splitPlan := plan } = toHear C t s [] q := by
  have hleft := h.left
  have hright := h.right
  have hgoing : C.going (s.rx.toList ++ text) t { q with unsent := rest, splitPlan := plan } =
      C.going (s.rx.toList ++ []) t q := by
    unfold Coupling.going
    rw [hu]
    simp only [List.append_assoc, List.nil_append]
  have hnear : [] ++ q.unsent.toList ++ C.out t.engine = text ++ rest.toList ++ C.out t.engine := by
    rw [hu, List.nil_append]
  refine ⟨⟨?_, ?_, h.leftOpen, ?_⟩, ?_⟩
  · rw [hnear] at hleft
    refine ⟨hleft.sound, hleft.unsent, hleft.isOpen, hleft.joined, hleft.moving, ?_, ?_, hleft.held⟩
    · exact Nat.le_trans hleft.acked (Nat.le_add_right _ _)
    · have := hleft.owed
      simp only [List.length_nil] at this
      show p.received + text.length ≤ p.acked + _ + text.length
      omega
  · refine ⟨hright.sound, hw, hright.isOpen, ?_, fun _ => .inr hb, hright.acked, hright.owed, hright.held⟩
    rw [hgoing]
    exact hright.joined
  · rw [hgoing]
    exact h.rightOpen
  · unfold toHear
    rw [hgoing]

/-- **When nothing moves any more, nothing is on its way.** Each end rests, no event is on its way, and what an endpoint
still holds is more than the other may be sent. -/
theorem Faces.settled (h : Faces ops C o a b s t [] [] p q) (hC : Couples ops C) (hs : s.Rests C)
    (hp : s.passedUnrecved = 0) (hb : ¬ b) (hroom : 0 < o.sndbuf) (hwindow : C.largest ≤ o.window)
    (hstuck : q.unsent.toList ≠ [] → o.window ≤ p.received - p.acked) :
    C.out t.engine = [] ∧ toHear C t s [] q = [] ∧ p.acked = p.received := by
  obtain ⟨-, hshort, hlast⟩ := hC.waits h.left.joined hs.waits
  have howed := h.left.owed
  have hsize := h.left.sound.rx.size_eq
  have hbytes := hs.bytes
  have hunsent : q.unsent.toList = [] := by
    refine Decidable.byContradiction fun hne => ?_
    have := hstuck hne
    simp only [List.length_nil] at howed
    omega
  have hout : C.out t.engine = [] := by
    refine Decidable.byContradiction fun hne => ?_
    rcases h.right.moving hne with hfull | hdue
    · have := h.right.unsent.size_eq
      rw [hunsent, List.length_nil] at this
      unfold Pcb.room at hfull
      omega
    · exact hb hdue
  obtain ⟨hrx, hplain⟩ := hlast (by rw [hunsent, hout]; rfl)
  refine ⟨hout, ?_, ?_⟩
  · rw [← coming_eq]
    unfold Coupling.coming
    rw [hs.rxApp, hrx, hunsent, hout]
    exact hplain
  · have := h.left.acked
    rw [hrx, List.length_nil] at hsize
    simp only [List.length_nil] at howed
    omega

end Tls

end Conduit
