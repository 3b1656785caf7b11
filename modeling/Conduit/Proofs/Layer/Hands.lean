import Conduit.Proofs.Layer.Flows
import Conduit.Proofs.Layer.Manners
import Conduit.Proofs.Tls.Flows
import Conduit.Stack.World

/-!
# Data flows through layers

What was shown of each kind of layer, of all of them: data flows through a layer that was fresh, whatever its methods are
called for, until it is aborted.

* `Layer.Flowing`: data flows through a layer.
* `Layer.Hands`: what a method of a layer has handed up when it ends.
* `Layer.hands_any`: a layer puts only fresh layers on accepted connections.
* `Layer.Flowing.hands`, `Layer.Flowing.settled`: **every method lets data flow, and so does a verdict.**
-/

namespace Conduit

open Layer Layer.Act

variable {H : Host} {α σ : Type} {out : List Bytes}

/-- A program that neither ends its connection for a fault nor puts a layer on another. -/
theorem Program.Inward.emits {new : Tls.Layer H.Source H.Engine → Prop} {K : List Handle} {p : Program (Layer.io H) α}
    {post : List Handle → Bool → α → Prop} (h : p.Inward false K post) (flag : Bool) (out : List Bytes) :
    p.Emits new (fun _ _ _ => True) flag out := by
  induction p generalizing K flag out with
  | done a => trivial
  | ask r next ih =>
    cases r with
    | inner => exact fun x => ih x (h x) flag out
    | ask => exact fun x => ih x (h.2.2 x) flag out
    | emit => exact ih () h.2 flag _
    | release =>
      obtain ⟨a, ha, -⟩ := h
      show (next ()).Emits new _ true out
      rw [ha]
      trivial
    | fail | cover => cases h.1
    | pollInterval | pcb | newEngine | shared => exact fun x => ih x (h x) flag out
    | note | setShared => exact fun x => ih () h flag out

theorem Layer.Act.Stays.emits {m : Act H σ α} (h : m.Stays) (new : Tls.Layer H.Source H.Engine → Prop) (s : σ)
    (flag : Bool) (out : List Bytes) : Emits new m s flag out fun _ _ _ _ => True :=
  Program.Inward.emits (h s []) flag out

/-- An answer that is made up does not depend on the program before it. -/
theorem Layer.Act.Emits.answered {β : Type} {new : Tls.Layer H.Source H.Engine → Prop} {m : Act H σ α} {s : σ} {flag : Bool}
    {c : β} (h : Emits new m s flag out fun _ _ _ _ => True) :
    Emits new (m >>= fun _ => pure c) s flag out fun r _ _ _ => r = c :=
  (emits_bind _ _).2 (h.mono fun _ _ _ _ _ => rfl)

/-- An event arrives, or none does. -/
theorem Method.lower_or_not (m : Method) : (∃ e, m = .op (.lower e)) ∨ m.isLower = false := by
  unfold isLower
  split
  · exact .inl ⟨_, rfl⟩
  · exact .inr rfl

/-! ## Layers that are put on accepted connections -/

section

variable {new : Tls.Layer H.Source H.Engine → Prop} {me : Handle} {m : Method}

theorem Plain.step_emits (l : Plain H.Pcb) (hm : m ≠ .dealloc) (out : List Bytes) :
    Emits new (Plain.step me m) l false out fun _ _ _ _ => True := by
  rcases m.lower_or_not with ⟨e, rfl⟩ | hlow
  · refine (emits_bind _ _).2 ?_
    unfold Plain.lower
    split
    · exact ((stays_modify _).bind fun _ => Plain.offer_stays me).emits new l false out
    · exact (stays_get.bind fun _ => (stays_note _).bind fun _ => (stays_modify _).bind fun _ =>
        Plain.offer_stays me).emits new l false out
    · exact ((Plain.offer_stays me).bind fun _ => stays_emit rfl).emits new l false out
    · simp only [emits_bind, emits_note, emits_modify, emits_fail, emits_pure]
    · simp only [emits_emit, emits_pure]
  · have h := Plain.step_inward me m hm l
    rw [hlow] at h
    exact Program.Inward.emits h false out

theorem Layer.forward_emits (s : σ) (out : List Bytes) :
    Emits new (forward m : Act H σ m.Reply) s false out fun _ _ _ _ => True := by
  rcases m.lower_or_not with ⟨e, rfl⟩ | hlow
  · cases e <;> trivial
  · have h := Layer.forward_inward (H := H) m s
    rw [hlow] at h
    exact Program.Inward.emits h false out

theorem Secure.step_emits (ops : Tls.EngineOps H.Engine H.Shared) (l : Tls.Layer H.Source H.Engine) (hm : m ≠ .dealloc)
    (out : List Bytes) : Emits Tls.Layer.Fresh (Secure.step ops me m) l false out fun _ _ _ _ => True := by
  rcases m.lower_or_not with ⟨e, rfl⟩ | hlow
  · show Emits _ (Secure.lower ops me e) l false out _
    unfold Secure.lower
    split
    · simp only [emits_bind, emits_get]
      split
      · trivial
      · exact (Secure.emits_accept _).mono fun _ _ _ _ _ => trivial
    · exact ((stays_note _).bind fun _ => stays_map Secure.receive_stays _).emits _ l false out
    · exact ((stays_modify _).bind fun _ => stays_map (stays_emit rfl) _).emits _ l false out
    · exact (stays_map (Secure.lowerData_stays _) _).emits _ l false out
    · refine (emits_bind _ _).2 ?_
      unfold Secure.lowerEof
      simp only [emits_bind, emits_get]
      split
      · split
        · trivial
        · exact ((stays_modify _).bind fun _ => (stays_note _).bind fun _ => Secure.deliver_stays).emits _ l false out
      · simp only [emits_bind, emits_note, emits_modify]
        exact Secure.emits_dropLower trivial
      · trivial
      · trivial
    · refine ((stays_note _).bind fun _ => (Secure.flushOn_stays _).bind fun _ => stays_get.bind fun l' => ?_ :
        Act.Stays (H := H) _).emits _ l false out
      split
      · exact stays_map (stays_emit rfl) _
      · exact stays_pure _
    · exact ((Secure.flushOn_stays _).bind fun _ => Secure.deliver_stays.bind fun _ => stays_map (stays_emit rfl) _).emits _ l
        false out
    · simp only [emits_bind, emits_note, emits_modify, emits_fail, emits_pure]
  · have h := @Secure.step_inward H ops me m hm l
    rw [hlow] at h
    exact Program.Inward.emits h false out

end

/-! ## What a layer hands up -/

namespace Layer

variable {whole : H.Engine → Bytes → Prop} {r r' : Bytes → Prop} {b : Behaviour H} {me : Handle} {m : Method}
  {layer : Layer H}

/-- Data flows through a layer: `out` was handed up and its verdict is to come; without, what the layer holds was refused,
as `r` says. -/
def Flowing (whole : H.Engine → Bytes → Prop) (r : Bytes → Prop) (out : List Bytes) : Layer H → Prop
  | .plain l => l.Flows r out
  | .secure l => l.Flows whole r out
  | .passthrough _ | .custom _ => True

/-- A layer of which nothing has been asked yet. -/
def New : Layer H → Prop
  | .plain l => ∃ p, l = .ofPcb p
  | .secure l => l.Fresh
  | .passthrough _ => True
  | .custom _ => False

theorem New.flowing (h : layer.New) : layer.Flowing whole r [] := by
  cases layer with
  | plain l =>
    obtain ⟨p, rfl⟩ := h
    exact Plain.ofPcb_flows p
  | secure l => exact h.flows
  | passthrough name => trivial
  | custom l => trivial

/-- While a verdict is to come, it does not matter what was refused before. -/
theorem Flowing.owing (h : layer.Flowing whole r out) (ho : out ≠ []) : layer.Flowing whole r' out := by
  cases layer with
  | plain l => exact ⟨h.toHolds, fun _ hnil => absurd hnil ho, h.fin⟩
  | secure l => exact ⟨h.toHolds, fun _ _ hnil => absurd hnil ho⟩
  | passthrough name => trivial
  | custom l => trivial

/-- Whatever it is answered, a layer ends a method as `post` says of its reply, of the layer, of whether its connection is to
go, and of the data that was handed up, where `out` was before. It puts only fresh layers on accepted connections. -/
def Hands (b : Behaviour H) (me : Handle) (m : Method) (out : List Bytes)
    (post : m.Reply → Layer H → Bool → List Bytes → Prop) : Layer H → Prop
  | .plain l => Emits Tls.Layer.Fresh (Plain.step me m) l false out fun r l' => post r (.plain l')
  | .secure l => Emits Tls.Layer.Fresh (Secure.step b.engine me m) l false out fun r l' => post r (.secure l')
  | .passthrough name =>
    Emits Tls.Layer.Fresh (forward m : Act H Unit m.Reply) () false out fun r _ => post r (.passthrough name)
  | .custom _ => True

/-- **Every method** puts only fresh layers on accepted connections. -/
theorem hands_any (layer : Layer H) (hm : m ≠ .dealloc) (out : List Bytes) :
    layer.Hands b me m out fun _ _ _ _ => True := by
  cases layer with
  | plain l => exact Plain.step_emits l hm out
  | secure l => exact Secure.step_emits b.engine l hm out
  | passthrough name => exact Layer.forward_emits () out
  | custom l => trivial

/-- **A layer takes the data that it is given.** -/
theorem hands_taken (layer : Layer H) (data : Bytes) (out : List Bytes) :
    layer.Hands b me (.op (.lower (.recv data))) out fun r _ _ _ => r = .ok () := by
  cases layer with
  | plain l =>
    have htaken : Emits Tls.Layer.Fresh (Plain.lower me (.recv data)) l false out fun _ _ _ _ => True :=
      ((stays_modify _).bind fun _ => Plain.offer_stays me).emits _ l false out
    unfold Hands
    exact htaken.answered
  | secure l =>
    have htaken : Emits Tls.Layer.Fresh (Secure.lowerData b.engine me data) l false out fun _ _ _ _ => True :=
      (Secure.lowerData_stays data).emits _ l false out
    unfold Hands
    exact htaken.answered
  | passthrough name => rfl
  | custom l => trivial

section

variable (hx : Tls.Exhausts b.engine whole) (hf : Tls.Fruitful b.engine)
include hx hf

/-- **Every method lets data flow**, unless it gives the connection up. -/
theorem Flowing.hands (h : layer.Flowing whole r out) (ha : m ≠ .op .abort) (hd : m ≠ .dealloc) (hs : ∀ v, m ≠ .settled v) :
    layer.Hands b me m out fun _ l' flag out' => flag = false → l'.Flowing whole r out' := by
  cases layer with
  | plain l => exact Plain.step_flows h ha hd hs
  | secure l => exact (Secure.step_flows hx hf h ha hd hs).mono fun _ _ _ _ h' hflag => (h' hflag).flows
  | passthrough name =>
    unfold Hands
    exact (Layer.forward_emits () out).mono fun _ _ _ _ _ _ => trivial
  | custom l => trivial

/-- **A verdict lets data flow**: what was refused stays, and of what is held otherwise something is handed up. -/
theorem Flowing.settled {d : Bytes} {v : Outcome} (h : layer.Flowing whole r (d :: out)) (hv : ∀ f, v = .error f → r' d) :
    layer.Hands b me (.settled v) out fun _ l' flag out' => flag = false → l'.Flowing whole r' out' := by
  cases layer with
  | plain l =>
    unfold Hands
    exact (Plain.settle_flows h hv).mono fun _ _ _ _ h' _ => h'.2
  | secure l =>
    unfold Hands
    exact (Secure.settle_flows hx hf h hv).mono fun _ _ _ _ h' _ => h'.flows
  | passthrough name =>
    unfold Hands
    exact (Layer.forward_emits () out).mono fun _ _ _ _ _ _ => trivial
  | custom l => trivial

end

end Layer

end Conduit
