import Conduit.Proofs.Layer.Emits

/-!
# Data flows through a plain layer

A plain layer hands up what it holds as soon as it may. So whatever its methods are called for, it holds data only while
a delivery is out or after the last one was refused, and it holds the end of the stream back only behind such data.

* `Plain.Holds`: what is out is at the front of what the layer holds.
* `Plain.Flows`: and where nothing is out, what is held was refused.
* `Plain.step_flows`, `Plain.settle_flows`: **every method lets data flow.**
-/

namespace Conduit

open Layer Layer.Act

variable {H : Host}

namespace Plain

variable {Q : Type} {r r' : Bytes → Prop} {out : List Bytes}

/-- The data `out` was handed up, and the verdict on it is still to come: it is at the front of what the layer holds. -/
structure Holds (out : List Bytes) (l : Plain Q) : Prop where
  rx : l.rx.WellFormed
  flight : out = [] ∧ l.inFlight = none ∨ ∃ d, out = [d] ∧ d ≠ [] ∧ l.inFlight = some d.length ∧ d <+: l.rx.toList

/-- Where nothing is out and the layer is still read, what it holds begins with data of which `r` says that it was
refused, and the end of the stream was handed up unless the layer holds something. -/
structure Flows (r : Bytes → Prop) (out : List Bytes) (l : Plain Q) : Prop extends Holds out l where
  held : l.rxShut = false → out = [] → l.rx.toList ≠ [] → ∃ d, r d ∧ d ≠ [] ∧ d <+: l.rx.toList
  fin : l.rxShut = false → l.finPending = true → l.finDelivered = false → l.rx.toList ≠ []

variable {l : Plain Q}

theorem Holds.inFlight_none (h : l.Holds []) : l.inFlight = none := by
  rcases h.flight with ⟨-, hi⟩ | ⟨d, hd, -⟩
  · exact hi
  · cases hd

/-- What is out, is something. -/
theorem Holds.rx_ne_nil (h : l.Holds out) (ho : out ≠ []) : l.rx.toList ≠ [] := by
  rcases h.flight with ⟨hnil, -⟩ | ⟨d, -, hne, -, hp⟩
  · exact absurd hnil ho
  · intro hnil
    rw [hnil] at hp
    exact hne (List.prefix_nil.1 hp)

theorem ofPcb_flows (p : PcbRef Q) : (ofPcb p).Flows r [] where
  rx := Segments.wellFormed_default
  flight := .inl ⟨rfl, rfl⟩
  held _ _ h := absurd rfl h
  fin _ h := by cases h

/-- More has come in. -/
theorem Holds.push (h : l.Holds out) (data : Bytes) : Holds out { l with rx := l.rx.push data } where
  rx := h.rx.push
  flight := by
    rcases h.flight with hnone | ⟨d, ho, hne, hi, hp⟩
    · exact .inl hnone
    · refine .inr ⟨d, ho, hne, hi, ?_⟩
      rw [Segments.toList_push]
      exact hp.trans (List.prefix_append _ _)

variable {l : Plain H.Pcb} {new : Tls.Layer H.Source H.Engine → Prop} {me : Handle} {flag : Bool}

theorem emits_withPcb {o : PcbOp} {absent : o.Reply} {post : o.Reply → Plain H.Pcb → Bool → List Bytes → Prop}
    (h : ∀ x, post x l flag out) : Emits new (withPcb o absent) l flag out post := by
  unfold withPcb
  simp only [emits_bind, emits_get]
  split
  · exact fun x => h x
  · exact h absent

/-- **An offer** leaves nothing in the layer that is not out, unless the layer is read no more. -/
theorem offer_flows (h : l.Holds out) (r : Bytes → Prop) :
    Emits new (offer me) l flag out fun _ l' flag' out' => flag' = flag ∧ l'.Flows r out' := by
  unfold offer
  simp only [emits_bind, emits_get]
  split
  · -- a delivery is out
    rename_i hi
    have ho : out ≠ [] := by
      rintro rfl
      simp [h.inFlight_none] at hi
    exact ⟨rfl, h, fun _ hnil => absurd hnil ho, fun _ _ _ => h.rx_ne_nil ho⟩
  · rename_i hi
    have hnone : l.inFlight = none := by simpa using hi
    have hout : out = [] := by
      rcases h.flight with ⟨ho, -⟩ | ⟨d, -, -, hi', -⟩
      · exact ho
      · rw [hnone] at hi'
        cases hi'
    subst hout
    split
    · -- the layer is read no more
      rename_i hshut
      have hvoid : ∀ l' : Plain H.Pcb, l'.rxShut = true → l'.Holds [] → l'.Flows r [] := fun l' hs hl' =>
        ⟨hl', fun hf => absurd (hs.symm.trans hf) (by simp), fun hf => absurd (hs.symm.trans hf) (by simp)⟩
      split
      · simp only [emits_bind, emits_set]
        refine emits_withPcb fun _ => ?_
        rw [emits_note]
        exact ⟨rfl, hvoid { l with rx := .empty } hshut ⟨Segments.wellFormed_empty, .inl ⟨rfl, hnone⟩⟩⟩
      · exact ⟨rfl, hvoid _ hshut h⟩
    · rename_i hopen
      split
      · -- what is held is handed up
        rename_i he
        have hne : l.rx.toList ≠ [] := fun hnil => by simp [h.rx.isEmpty_iff.2 hnil] at he
        simp only [emits_bind, emits_set, emits_emit]
        refine ⟨trivial, ⟨h.rx, .inr ⟨_, rfl, hne, by rw [← h.rx.size_eq], List.prefix_refl _⟩⟩, fun _ ho => ?_, fun _ _ _ => hne⟩
        cases ho
      · rename_i he
        have hnil : l.rx.toList = [] := h.rx.isEmpty_iff.1 (by simpa using he)
        split
        · simp only [emits_bind, emits_set, emits_emit]
          exact ⟨trivial, ⟨h.rx, .inl ⟨rfl, hnone⟩⟩, fun _ _ hne => absurd hnil hne, fun _ _ hd => by cases hd⟩
        · rename_i hfin
          refine ⟨rfl, h, fun _ _ hne => absurd hnil hne, fun _ (hp : l.finPending = true) hd => ?_⟩
          exact absurd (by simpa [hp] using hd) hfin

/-- **A verdict** on what was out: what was accepted is dropped, and what is left is handed up; what was refused
stays. -/
theorem settle_flows {d : Bytes} (h : l.Flows r (d :: out)) {v : Outcome} (hv : ∀ f, v = .error f → r' d) :
    Emits new (step me (.settled v)) l false out fun _ l' flag out' => flag = false ∧ l'.Flows r' out' := by
  obtain ⟨d', hd, hne, hi, hp⟩ := h.flight.resolve_left (by simp)
  cases hd
  show Emits new (settle me v) l false [] _
  unfold settle
  simp only [emits_bind, emits_get, hi, emits_modify]
  cases v with
  | ok _ =>
    simp only [emits_bind, emits_modify]
    exact offer_flows ⟨h.rx.advance, .inl ⟨rfl, rfl⟩⟩ r'
  | error f =>
    rw [emits_note]
    exact ⟨rfl, ⟨h.rx, .inl ⟨rfl, rfl⟩⟩, fun _ _ _ => ⟨d, hv f rfl, hne, hp⟩,
      fun _ _ _ => h.rx_ne_nil (by simp)⟩

/-- Unless the connection is to go, data flows. -/
def Keeps (r : Bytes → Prop) (l' : Plain H.Pcb) (flag : Bool) (out : List Bytes) : Prop := flag = false → l'.Flows r out

theorem lower_flows (h : l.Flows r out) (e : Event) :
    Emits new (lower me e) l false out fun _ l' flag out' => l'.Keeps r flag out' := by
  cases e with
  | recv data =>
    unfold lower
    simp only [emits_bind, emits_modify]
    exact (offer_flows (h.push data) r).mono fun _ l' flag out' h' _ => h'.2
  | eof =>
    unfold lower
    simp only [emits_bind, emits_get, emits_note, emits_modify]
    refine (offer_flows (l := { l with finPending := true }) ⟨h.rx, h.flight⟩ r).mono ?_
    exact fun _ l' flag out' h' _ => h'.2
  | poll =>
    unfold lower
    simp only [emits_bind]
    refine (offer_flows h.toHolds r).mono fun _ l' flag out' h' => ?_
    simp only [emits_emit, Event.parcel, List.append_nil]
    exact fun _ => h'.2
  | error reason =>
    unfold lower
    simp only [emits_bind, emits_note, emits_modify, emits_fail]
    exact fun hf => by cases hf
  | accept | connected | sent =>
    unfold lower
    simp only [emits_emit, Event.parcel, List.append_nil]
    exact fun _ => h

theorem close_flows (h : l.Flows r out) : Emits new (close me) l false out fun _ l' flag out' => l'.Keeps r flag out' := by
  unfold close
  simp only [emits_bind, emits_get]
  split
  · simp only [emits_bind, emits_release]
    exact fun hf => by cases hf
  · simp only [emits_bind, emits_pcb]
    intro _ x
    cases x with
    | ok _ =>
      simp only [emits_bind, emits_modify, emits_release]
      exact fun hf => by cases hf
    | error f =>
      simp only [emits_bind, emits_pcb, emits_pollInterval, emits_note]
      exact fun _ _ _ _ => h

theorem shutdown_flows (h : l.Flows r out) (dir : Direction) :
    Emits new (shutdown me dir) l false out fun _ l' flag out' => l'.Keeps r flag out' := by
  unfold shutdown
  split
  · exact close_flows h
  · simp only [emits_bind]
    refine emits_withPcb fun x => ?_
    cases x with
    | error f => exact fun _ => h
    | ok _ =>
      dsimp only
      split
      · simp only [emits_bind, emits_modify]
        refine (offer_flows (l := { l with rxShut := true }) ⟨h.rx, h.flight⟩ r).mono ?_
        exact fun _ l' flag out' h' _ => h'.2
      · exact fun _ => h

/-- **Every other method** lets data flow, unless it gives the connection up. -/
theorem step_flows (h : l.Flows r out) {m : Method} (ha : m ≠ .op .abort) (hd : m ≠ .dealloc)
    (hs : ∀ v, m ≠ .settled v) :
    Emits new (step me m) l false out fun _ l' flag out' => l'.Keeps r flag out' := by
  cases m with
  | dealloc => exact absurd rfl hd
  | settled v => exact absurd rfl (hs v)
  | op o =>
    cases o with
    | abort => exact absurd rfl ha
    | lower e => exact (Layer.Act.emits_bind _ _).2 ((lower_flows h e).mono fun _ l' flag out' h' => h')
    | close => exact close_flows h
    | shutdown dir => exact shutdown_flows h dir
    | _ => exact emits_withPcb fun _ _ => h

end Plain

end Conduit
