import Conduit.Proofs.Layer.Takes
import Conduit.Proofs.Loopback.Streams

/-!
# The plain layer as a sender

What a plain layer asks for while its connection lives: it works on its own endpoint, and does there nothing that would
part it from its peer, and it tells of nothing that would end the connection.

* `Program.Meets`: what a program asks for and how it ends.
* `Plain.step_proper`: **every method of the layer is of this kind**; what is released has given its endpoint up.
* `Plain.step_mild`: an operation that leaves the state of the layer alone.
-/

namespace Conduit

variable {H : Host} {α β : Type}

/-- Whatever it is answered, a program asks only for what `R` allows, and ends as `post` says of its result; the flag
says whether the connection is to be freed. -/
def Program.Meets (R : Layer.Req H → Prop) (post : α → Bool → Prop) : Program (Layer.io H) α → Bool → Prop
  | .done a, flag => post a flag
  | .ask r next, flag =>
    match r, next with
    | .release, next => (next ()).Meets R post true
    | r, next => R r ∧ ∀ x, (next x).Meets R post flag

theorem Program.Meets.bind {R : Layer.Req H → Prop} {mid : α → Bool → Prop} {post : β → Bool → Prop}
    {p : Program (Layer.io H) α} {f : α → Program (Layer.io H) β} {flag : Bool} (hp : p.Meets R mid flag)
    (hf : ∀ a flag, mid a flag → (f a).Meets R post flag) : (p >>= f).Meets R post flag := by
  induction p generalizing flag with
  | done a => exact hf a flag hp
  | ask r next ih =>
    cases r with
    | release => exact ih () hp
    | _ => exact ⟨hp.1, fun x => ih x (hp.2 x)⟩

/-- What the layer of the connection `id` over the endpoint `i` may ask for. -/
def Layer.Req.IsProper (i : Nat) (id : Handle) : Layer.Req H → Prop
  | .emit e => e.isTame = true
  | .note _ | .pollInterval => True
  | .pcb p o =>
    p = .loopback i ∧ o.isCalm = true ∧ (∀ data flags, o ≠ .write data flags) ∧ ∀ other, o = .attach other → other = id
  | _ => False

/-- Whether a connection that was asked to do this is still joined to its peer. -/
def Op.isCalm : Op → Bool
  | .bind _ | .connect _ | .listen _ | .abort => false
  | .lower e => e.isTame
  | _ => true

/-- Whether a connection that was asked to do this is open as before. -/
def Op.isMild : Op → Bool
  | .bind _ | .connect _ | .listen _ | .abort | .lower _ | .close | .shutdown _ => false
  | _ => true

/-- What is asked of a layer while its connection lives, other than a write. -/
def Method.IsProper : Method → Prop
  | .op o => o.isCalm = true ∧ ∀ data flags, o ≠ .write data flags
  | .settled _ => True
  | .dealloc => False

namespace Plain

variable {i : Nat} {me : Handle} {flag : Bool}

/-- A layer over the endpoint `i`, or one that has given it up; what is to be freed has. -/
def Over (i : Nat) (P : Plain H.Pcb) (flag : Bool) : Prop :=
  (P.pcb = none ∨ P.pcb = some (.loopback i)) ∧ (flag = true → P.pcb = none)

variable {P : Plain H.Pcb}

/-- An operation of the endpoint, if there is one. -/
theorem withPcb_meets {R : Layer.Req H → Prop} (o : PcbOp) (absent : o.Reply) (hP : P.Over i flag)
    (hR : R (.pcb (.loopback i) o)) :
    Program.Meets R (fun r flag => r.2.Over i flag) ((withPcb o absent : Act H o.Reply) P) flag := by
  obtain ⟨pcb, rx, inFlight, finPending, finDelivered, rxShut⟩ := P
  obtain ⟨rfl | rfl, hflag⟩ := id hP
  · exact hP
  · exact ⟨hR, fun _ => hP⟩

theorem offer_meets (hP : P.Over i flag) :
    Program.Meets (Layer.Req.IsProper i me) (fun r flag => r.2.Over i flag) (offer (H := H) me P) flag := by
  show Program.Meets _ _ ((if P.inFlight.isSome then (pure () : Act H Unit) else _) P) flag
  split
  · exact hP
  · split
    · split
      · have hP' : ({ P with rx := .empty } : Plain H.Pcb).Over i flag := hP
        exact (withPcb_meets _ _ hP' ⟨rfl, rfl, nofun, nofun⟩).bind fun a flag h => ⟨trivial, fun _ => h⟩
      · exact hP
    · split
      · exact ⟨rfl, fun _ => hP⟩
      · split
        · exact ⟨rfl, fun _ => hP⟩
        · exact hP

/-- What a method answers when it is done with. -/
theorem answers_meets {R : Layer.Req H → Prop} {p : Program (Layer.io H) (Unit × Plain H.Pcb)}
    (h : p.Meets R (fun r flag => r.2.Over i flag) flag) :
    Program.Meets R (fun (r : Outcome × Plain H.Pcb) flag => r.2.Over i flag) (p >>= fun r => .done (.ok (), r.2)) flag :=
  h.bind fun _ _ h => h

theorem lower_meets (hP : P.Over i flag) {e : Event} (he : e.isTame = true) :
    Program.Meets (Layer.Req.IsProper i me) (fun r flag => r.2.Over i flag)
      ((step (H := H) me (.op (.lower e))).run P) flag := by
  cases e with
  | accept | error => cases he
  | recv data =>
    have hP' : ({ P with rx := P.rx.push data } : Plain H.Pcb).Over i flag := hP
    exact answers_meets (offer_meets hP')
  | eof =>
    have hP' : ({ P with finPending := true } : Plain H.Pcb).Over i flag := hP
    exact ⟨trivial, fun _ => answers_meets (offer_meets hP')⟩
  | poll =>
    have h : Program.Meets (Layer.Req.IsProper i me) (fun r flag => r.2.Over i flag) (lower (H := H) me .poll P) flag :=
      (offer_meets hP).bind fun _ _ h => ⟨rfl, fun _ => h⟩
    exact answers_meets h
  | connected | sent => exact ⟨rfl, fun _ => hP⟩

theorem settle_meets (hP : P.Over i flag) (v : Outcome) :
    Program.Meets (Layer.Req.IsProper i me) (fun r flag => r.2.Over i flag)
      ((step (H := H) me (.settled v)).run P) flag := by
  obtain ⟨pcb, rx, inFlight, finPending, finDelivered, rxShut⟩ := P
  cases inFlight with
  | none => exact hP
  | some len =>
    cases v with
    | ok _ =>
      have hP' : (⟨pcb, rx.advance len, none, finPending, finDelivered, rxShut⟩ : Plain H.Pcb).Over i flag := hP
      exact offer_meets hP'
    | error f => exact ⟨trivial, fun _ => hP⟩

theorem close_meets (hP : P.Over i flag) :
    Program.Meets (Layer.Req.IsProper i me) (fun r flag => r.2.Over i flag) (close (H := H) me P) flag := by
  obtain ⟨pcb, rx, inFlight, finPending, finDelivered, rxShut⟩ := P
  obtain ⟨rfl | rfl, hflag⟩ := id hP
  · exact ⟨.inl rfl, fun _ => rfl⟩
  · refine ⟨⟨rfl, rfl, nofun, nofun⟩, fun _ => ⟨⟨rfl, rfl, nofun, nofun⟩, fun v => ?_⟩⟩
    cases v with
    | ok _ => exact ⟨.inl rfl, fun _ => rfl⟩
    | error f =>
      refine ⟨⟨rfl, rfl, nofun, fun _ h => ?_⟩, fun _ => ⟨trivial, fun _ => ⟨⟨rfl, rfl, nofun, nofun⟩, fun _ =>
        ⟨trivial, fun _ => hP⟩⟩⟩⟩
      cases h
      rfl

theorem shutdown_meets (hP : P.Over i flag) (dir : Direction) :
    Program.Meets (Layer.Req.IsProper i me) (fun r flag => r.2.Over i flag) (shutdown (H := H) me dir P) flag := by
  cases dir with
  | both => exact close_meets hP
  | read =>
    refine (withPcb_meets (.shutdown .read) (.error .closed) hP ⟨rfl, rfl, nofun, nofun⟩).bind ?_
    rintro ⟨v, P'⟩ flag' hP'
    cases v with
    | error f => exact hP'
    | ok _ =>
      have hP'' : ({ P' with rxShut := true } : Plain H.Pcb).Over i flag' := hP'
      exact answers_meets (offer_meets hP'')
  | write =>
    refine (withPcb_meets (.shutdown .write) (.error .closed) hP ⟨rfl, rfl, nofun, nofun⟩).bind ?_
    rintro ⟨v, P'⟩ flag' hP'
    cases v <;> exact hP'

/-- **Every method** of a layer over the endpoint `i`, but for a write: it keeps its endpoint joined to its peer, and
when its connection is to be freed it has given the endpoint up. -/
theorem step_proper (hP : P.Over i flag) {m : Method} (hm : m.IsProper) :
    Program.Meets (Layer.Req.IsProper i me) (fun r flag => r.2.Over i flag) ((step (H := H) me m).run P) flag := by
  cases m with
  | settled v => exact settle_meets hP v
  | dealloc => cases hm
  | op o =>
    cases o with
    | bind | connect | listen | abort => cases hm.1
    | write data flags => exact absurd rfl (hm.2 data flags)
    | lower e => exact lower_meets hP hm.1
    | close => exact close_meets hP
    | shutdown dir => exact shutdown_meets hP dir
    | _ =>
      obtain ⟨pcb, rx, inFlight, finPending, finDelivered, rxShut⟩ := P
      obtain ⟨rfl | rfl, hflag⟩ := id hP
      · exact hP
      · exact ⟨⟨rfl, rfl, nofun, nofun⟩, fun _ => hP⟩

/-- An operation that leaves the state of the layer alone. -/
theorem step_mild (hP : P.pcb = some (.loopback i)) {o : Op} (ho : o.isMild = true) :
    Program.Meets (fun r => ∃ o, r = .pcb (.loopback i) o ∧ o.isMild = true) (fun r flag => r.2 = P ∧ flag = false)
      ((step (H := H) me (.op o)).run P) false := by
  obtain ⟨pcb, rx, inFlight, finPending, finDelivered, rxShut⟩ := P
  cases hP
  cases o with
  | bind | connect | listen | abort | lower | close | shutdown => cases ho
  | _ => exact ⟨⟨_, rfl, rfl⟩, fun _ => ⟨rfl, rfl⟩⟩

end Plain

end Conduit
