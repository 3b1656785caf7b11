import Conduit.Layer.Plain
import Conduit.Proofs.Segments

/-!
# The plain layer as a receiver

What a plain layer that keeps reading does with what its endpoint brings. It holds what the application has not
accepted; at most one delivery is out, and the end of the stream comes last.

* `Program.Tells`: a program that only emits events and writes notes.
* `Plain.Takes`: the state of such a layer, told by what was brought to it and what of it was accepted.
* `Takes.lower`, `Takes.settle`: **what the layer does with an event and with a verdict.**
-/

namespace Conduit

variable {H : Host} {α β : Type}

/-! ## Programs that only tell -/

/-- A program that emits `es`, writes notes, and ends with `a`. -/
inductive Program.Tells : Program (Layer.io H) α → List Event → α → Prop
  | done {a : α} : Tells (.done a) [] a
  | note {n : Note} {next : Unit → Program (Layer.io H) α} {es : List Event} {a : α} (h : Tells (next ()) es a) :
      Tells (.ask (.note n) next) es a
  | emit {e : Event} {next : Unit → Program (Layer.io H) α} {es : List Event} {a : α} (h : Tells (next ()) es a) :
      Tells (.ask (.emit e) next) (e :: es) a

theorem Program.Tells.bind {p : Program (Layer.io H) α} {f : α → Program (Layer.io H) β} {es es' : List Event} {a : α}
    {c : β} (hp : p.Tells es a) (hf : (f a).Tells es' c) : (p >>= f).Tells (es ++ es') c := by
  induction hp with
  | done => exact hf
  | note _ ih => exact .note (ih hf)
  | emit _ ih => exact .emit (ih hf)

/-- What an event offers to the receiver: data, or the end of the stream. -/
def Event.offered : Event → Option (Option Bytes)
  | .recv data => some (some data)
  | .eof => some none
  | _ => none

/-- An event that neither brings a connection nor ends one. -/
def Event.isTame : Event → Bool
  | .accept _ | .error _ => false
  | _ => true

/-- An event from an endpoint adds to what was brought; the flags say whether goodbye was. -/
inductive Event.Brings : Event → Bytes → Bool → Bytes → Bool → Prop
  | data (text brought : Bytes) : Brings (.recv text) brought false (brought ++ text) false
  | eof (brought : Bytes) : Brings .eof brought false brought true
  | other {e : Event} (brought : Bytes) (fin : Bool) (ht : e.isTame = true) (ho : e.offered = none) :
      Brings e brought fin brought fin

namespace Plain

open Program

variable {Q : Type} {j : Nat} {brought brought' acc : Bytes} {fin fin' refused told : Bool} {out : List (Option Bytes)}

/-! ## What is out -/

/-- What is out of the layer: the deliveries of which the verdict is still to come. The flag says that the application
has heard of the end of the stream. -/
inductive Out (P : Plain Q) : List (Option Bytes) → Bool → Prop
  | nothing (hi : P.inFlight = none) (hd : P.finDelivered = false) : Out P [] false
  | data {text : Bytes} (hne : text ≠ []) (hp : text <+: P.rx.toList) (hi : P.inFlight = some text.length)
      (hd : P.finDelivered = false) : Out P [some text] false
  | farewell (hi : P.inFlight = none) (hd : P.finDelivered = true) (hf : P.finPending = true)
      (he : P.rx.toList = []) : Out P [none] false
  | finished (hi : P.inFlight = none) (hd : P.finDelivered = true) (hf : P.finPending = true) (he : P.rx.toList = []) :
      Out P [] true

/-- A layer over the endpoint `j` that keeps reading. Of what was brought, the application has accepted `acc`; unless it
has refused something, what it has not accepted is out. -/
structure Takes (j : Nat) (brought : Bytes) (fin : Bool) (acc : Bytes) (refused told : Bool)
    (out : List (Option Bytes)) (P : Plain Q) : Prop where
  pcb : P.pcb = some (.loopback j)
  rx : P.rx.WellFormed
  notShut : P.rxShut = false
  brought_eq : brought = acc ++ P.rx.toList
  fin : P.finPending = fin
  out : P.Out out told
  eager : refused = true ∨ P.inFlight.isSome = true ∨ P.rx.toList = []

/-- Where nothing is out, no verdict is awaited; if the end of the stream was told, nothing is held. -/
theorem Out.settled {P : Plain Q} (h : P.Out [] told) :
    P.inFlight = none ∧ (told = true → P.finPending = true ∧ P.rx.toList = []) := by
  cases h with
  | nothing hi => exact ⟨hi, nofun⟩
  | finished hi _ hf he => exact ⟨hi, fun _ => ⟨hf, he⟩⟩

theorem Takes.mono {P : Plain Q} {refused' : Bool} (h : P.Takes j brought fin acc refused told out)
    (hr : refused = true → refused' = true) : P.Takes j brought fin acc refused' told out :=
  ⟨h.pcb, h.rx, h.notShut, h.brought_eq, h.fin, h.out, h.eager.imp_left hr⟩

variable {P : Plain H.Pcb}

/-- A method that tells something, and answers that all is well. -/
theorem tells_ok {p : Program (Layer.io H) (Unit × Plain H.Pcb)} {es : List Event} (h : Tells p es ((), P)) :
    Tells (p >>= fun r => .done ((.ok () : Outcome), r.2)) es (.ok (), P) := by
  have := h.bind (f := fun r => .done ((.ok () : Outcome), r.2)) .done
  rwa [List.append_nil] at this

/-- **An offer** leaves nothing in the layer that is not out. -/
theorem Takes.offer (h : P.Takes j brought fin acc refused told out) (me : Handle) :
    ∃ es P', Tells (Plain.offer me P) es ((), P') ∧ (∀ e ∈ es, e.isTame = true) ∧
      P'.Takes j brought fin acc false told (out ++ es.filterMap Event.offered) := by
  have hsame : ∀ hrx : P.inFlight.isSome = true ∨ P.rx.toList = [],
      P.Takes j brought fin acc false told (out ++ ([] : List Event).filterMap Event.offered) := fun hrx =>
    ⟨h.pcb, h.rx, h.notShut, h.brought_eq, h.fin, by rw [List.filterMap_nil, List.append_nil]; exact h.out, .inr hrx⟩
  show ∃ es P', Tells ((if P.inFlight.isSome then (pure () : Act H Unit) else _) P) es ((), P') ∧ _
  rcases hi : P.inFlight with - | len
  · rw [if_neg (by simp), if_neg (by simp [h.notShut])]
    by_cases he : P.rx.isEmpty = true
    · have hnil : P.rx.toList = [] := h.rx.isEmpty_iff.1 he
      rw [if_neg (by simp [he])]
      by_cases hend : (P.finPending && !P.finDelivered) = true
      · -- all is taken, so the end of the stream can be told
        rw [if_pos hend]
        simp only [Bool.and_eq_true, Bool.not_eq_true'] at hend
        refine ⟨[.eof], { P with inFlight := none, finDelivered := true }, .emit .done, by simp [Event.isTame], ?_⟩
        cases h.out with
        | nothing _ _ =>
          exact ⟨h.pcb, h.rx, h.notShut, h.brought_eq, h.fin, .farewell rfl rfl hend.1 hnil, .inr (.inr hnil)⟩
        | data _ _ hi' => simp [hi] at hi'
        | farewell _ hd => simp [hend.2] at hd
        | finished _ hd => simp [hend.2] at hd
      · rw [if_neg hend]
        exact ⟨[], P, .done, by simp, hsame (.inr hnil)⟩
    · rw [if_pos (by simpa using he)]
      have hne : P.rx.toList ≠ [] := fun hnil => he (h.rx.isEmpty_iff.2 hnil)
      refine ⟨[.recv P.rx.toList], { P with inFlight := some P.rx.size }, .emit .done, by simp [Event.isTame], ?_⟩
      cases h.out with
      | nothing _ hd =>
        exact ⟨h.pcb, h.rx, h.notShut, h.brought_eq, h.fin,
          .data hne (List.prefix_refl _) (by rw [← h.rx.size_eq]) hd, .inr (.inl rfl)⟩
      | data _ _ hi' => simp [hi] at hi'
      | farewell _ _ _ hnil => exact absurd hnil hne
      | finished _ _ _ hnil => exact absurd hnil hne
  · rw [if_pos (by simp)]
    exact ⟨[], P, .done, by simp, hsame (.inl (by simp [hi]))⟩

/-- **An event from the endpoint.** -/
theorem Takes.lower (h : P.Takes j brought fin acc refused told out) {e : Event}
    (he : e.Brings brought fin brought' fin') (me : Handle) :
    ∃ es P', Tells (Plain.step me (.op (.lower e)) P) es (.ok (), P') ∧ (∀ e ∈ es, e.isTame = true) ∧
      P'.Takes j brought' fin' acc refused told (out ++ es.filterMap Event.offered) := by
  cases he with
  | data text =>
    have h₁ : ({ P with rx := P.rx.push text } : Plain H.Pcb).Takes j (brought ++ text) false acc true told out := by
      refine ⟨h.pcb, h.rx.push, h.notShut, ?_, h.fin, ?_, .inl rfl⟩
      · rw [h.brought_eq, Segments.toList_push, List.append_assoc]
      · have hfin := h.fin
        cases h.out with
        | nothing hi hd => exact .nothing hi hd
        | data hne hp hi hd =>
          exact .data hne (by rw [Segments.toList_push]; exact hp.trans (List.prefix_append _ _)) hi hd
        | farewell _ _ hf => simp [hf] at hfin
        | finished _ _ hf => simp [hf] at hfin
    obtain ⟨es, P', ht, htame, h'⟩ := h₁.offer me
    exact ⟨es, P', tells_ok ht, htame, h'.mono (by simp)⟩
  | eof =>
    have h₁ : ({ P with finPending := true } : Plain H.Pcb).Takes j brought true acc true told out := by
      refine ⟨h.pcb, h.rx, h.notShut, h.brought_eq, rfl, ?_, .inl rfl⟩
      have hfin := h.fin
      cases h.out with
      | nothing hi hd => exact .nothing hi hd
      | data hne hp hi hd => exact .data hne hp hi hd
      | farewell _ _ hf => simp [hf] at hfin
      | finished _ _ hf => simp [hf] at hfin
    obtain ⟨es, P', ht, htame, h'⟩ := h₁.offer me
    exact ⟨es, P', .note (tells_ok ht), htame, h'.mono (by simp)⟩
  | other _ _ ht ho =>
    have hsame : ∀ e : Event, e.offered = none → e.isTame = true → (∀ f ∈ [e], f.isTame = true) ∧
        P.Takes j brought fin acc refused told (out ++ [e].filterMap Event.offered) := by
      intro e ho ht
      refine ⟨by simpa using ht, ?_⟩
      rw [List.filterMap_cons_none ho, List.filterMap_nil, List.append_nil]
      exact h
    cases e with
    | accept | error => cases ht
    | recv | eof => cases ho
    | connected r => exact ⟨[.connected r], P, .emit .done, hsame _ rfl rfl⟩
    | sent n => exact ⟨[.sent n], P, .emit .done, hsame _ rfl rfl⟩
    | poll =>
      obtain ⟨es, P', ht, htame, h'⟩ := h.offer me
      have hlower : Tells (Plain.lower me .poll P) (es ++ [.poll]) ((), P') :=
        ht.bind (f := fun r : Unit × Plain H.Pcb => (Layer.Act.emit .poll : Act H Unit) r.2) (c := ((), P')) (.emit .done)
      refine ⟨es ++ [.poll], P', tells_ok hlower, ?_, ?_⟩
      · intro e he
        rcases List.mem_append.1 he with he | he
        · exact htame e he
        · rw [List.mem_singleton.1 he]
          rfl
      · rw [List.filterMap_append, List.filterMap_cons_none rfl, List.filterMap_nil, List.append_nil]
        exact h'.mono (by simp)

/-- **A verdict on data.** What was accepted is dropped, and what is left is offered; what was refused stays. -/
theorem Takes.settle {text : Bytes} (h : P.Takes j brought fin acc refused told (some text :: out)) (me : Handle)
    (v : Outcome) : out = [] ∧ told = false ∧ text <+: P.rx.toList ∧
      ∃ es P', Tells (Plain.step me (.settled v) P) es ((), P') ∧ (∀ e ∈ es, e.isTame = true) ∧
        P'.Takes j brought fin (match v with | .ok _ => acc ++ text | .error _ => acc)
          (match v with | .ok _ => refused | .error _ => true) false (es.filterMap Event.offered) := by
  cases h.out with
  | data hne hp hi hd =>
    refine ⟨rfl, rfl, hp, ?_⟩
    obtain ⟨rest, hrest⟩ := hp
    cases v with
    | ok _ =>
      have h₁ : ({ P with rx := P.rx.advance text.length, inFlight := none } : Plain H.Pcb).Takes j brought fin
          (acc ++ text) true false [] := by
        refine ⟨h.pcb, h.rx.advance, h.notShut, ?_, h.fin, .nothing rfl hd, .inl rfl⟩
        rw [Segments.toList_advance h.rx, ← hrest, List.drop_left, List.append_assoc, hrest]
        exact h.brought_eq
      obtain ⟨es, P', ht, htame, h'⟩ := h₁.offer me
      refine ⟨es, P', ?_, htame, h'.mono (by simp)⟩
      have hsettle : Plain.step me (.settled (.ok ())) P =
          Plain.offer me { P with rx := P.rx.advance text.length, inFlight := none } := by
        obtain ⟨pcb, rx, inFlight, finPending, finDelivered, rxShut⟩ := P
        cases hi
        rfl
      rw [hsettle]
      exact ht
    | error f =>
      refine ⟨[], { P with inFlight := none }, ?_, by simp,
        h.pcb, h.rx, h.notShut, h.brought_eq, h.fin, .nothing rfl hd, .inl rfl⟩
      obtain ⟨pcb, rx, inFlight, finPending, finDelivered, rxShut⟩ := P
      cases hi
      exact .note .done

end Plain

end Conduit
