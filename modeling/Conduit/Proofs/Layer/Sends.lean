import Conduit.Layer.Plain
import Conduit.Layer.Secure

/-!
# Layers that send

What a layer does to send goes down: it asks the connection below for room and to write, and neither tells the
connection above of anything nor lets any connection go.

* `Op.sends`: the operations by which data goes out.
* `Program.Sends`: a program that does no more than send through the connection below.
* `Plain.step_sends`, `Secure.step_sends`, `Layer.forward_sends`: **each kind of layer answers those operations so.**
* `Secure.sendCloseNotify_sends`: and so does a TLS layer that takes its leave.
-/

namespace Conduit

variable {H : Host} {σ α β : Type} {inner : Option Handle}

/-- The operations by which data goes out. -/
def Op.sends : Op → Bool
  | .write _ _ | .output | .sndbuf => true
  | _ => false

namespace Program

/-- A program of a layer over the connection `inner`, if any, that does no more than send. -/
def Sends (inner : Option Handle) : Program (Layer.io H) α → Prop
  | .done _ => True
  | .ask r next =>
    match r, next with
    | .inner, next => (next inner).Sends inner
    | .ask id o, next => inner = some id ∧ o.sends = true ∧ ∀ x, (next x).Sends inner
    | .pollInterval, next => ∀ x, (next x).Sends inner
    | .note _, next => (next ()).Sends inner
    | .pcb _ _, next => ∀ x, (next x).Sends inner
    | .newEngine _ _, next => ∀ x, (next x).Sends inner
    | .shared, next => ∀ x, (next x).Sends inner
    | .setShared _, next => (next ()).Sends inner
    | .emit _, _ | .release, _ | .fail _, _ | .cover _ _, _ => False

theorem Sends.bind {p : Program (Layer.io H) α} {f : α → Program (Layer.io H) β} (hp : p.Sends inner)
    (hf : ∀ a, (f a).Sends inner) : (p >>= f).Sends inner := by
  induction p with
  | done a => exact hf a
  | ask r next ih =>
    cases r with
    | inner => exact ih _ hp
    | ask => exact ⟨hp.1, hp.2.1, fun x => ih x (hp.2.2 x)⟩
    | pollInterval | pcb | newEngine | shared => exact fun x => ih x (hp x)
    | note | setShared => exact ih _ hp
    | emit | release | fail | cover => cases hp

end Program

namespace Layer.Act

/-- In every state, a layer does no more than send. -/
def Sends (inner : Option Handle) (m : Act H σ α) : Prop := ∀ s, Program.Sends inner (m s)

theorem Sends.bind {m : Act H σ α} {f : α → Act H σ β} (hm : m.Sends inner) (hf : ∀ a, (f a).Sends inner) :
    (m >>= f).Sends inner := fun s => Program.Sends.bind (hm s) fun a => hf a.1 a.2

theorem sends_pure (a : α) : (pure a : Act H σ α).Sends inner := fun _ => trivial

theorem Sends.map {m : Act H σ α} (h : m.Sends inner) (f : α → β) : (m >>= fun a => pure (f a)).Sends inner :=
  h.bind fun _ => sends_pure _

theorem sends_get : (get : Act H σ σ).Sends inner := fun _ => trivial

theorem sends_set (s : σ) : (set s : Act H σ PUnit).Sends inner := fun _ => trivial

theorem sends_modify (f : σ → σ) : (modify f : Act H σ PUnit).Sends inner := fun _ => trivial

theorem sends_note (n : Note) : (note n : Act H σ Unit).Sends inner := fun _ => trivial

theorem sends_pcb (p : PcbRef H.Pcb) (o : PcbOp) : (pcb p o : Act H σ o.Reply).Sends inner := fun _ _ => trivial

/-- The connection below is asked to send, if there is one. -/
theorem sends_inner {f : Option Handle → Act H σ β} (hf : (f inner).Sends inner) :
    (Act.inner >>= f : Act H σ β).Sends inner := fun s => hf s

theorem sends_ask {id : Handle} {o : Op} (hi : inner = some id) (ho : o.sends = true) :
    (ask id o : Act H σ o.Reply).Sends inner := fun _ => ⟨hi, ho, fun _ => trivial⟩

theorem sends_below {o : Op} (ho : o.sends = true) (absent : o.Reply) : (below o absent : Act H σ o.Reply).Sends inner := by
  refine sends_inner ?_
  cases inner with
  | none => exact sends_pure _
  | some id => exact sends_ask rfl ho

end Layer.Act

open Layer Layer.Act

/-- A layer that hands everything on sends through the connection below. -/
theorem Layer.forward_sends {o : Op} (ho : o.sends = true) :
    (forward (.op o) : Act H σ (Method.op o).Reply).Sends inner := by
  cases o with
  | write | output | sndbuf => exact sends_below ho _
  | _ => cases ho

namespace Plain

theorem withPcb_sends (o : PcbOp) (absent : o.Reply) : (withPcb o absent : Act H o.Reply).Sends inner := by
  unfold withPcb
  refine sends_get.bind fun s => ?_
  split
  · exact sends_pcb _ _
  · exact sends_pure _

/-- A plain layer sends through its endpoint. -/
theorem step_sends (me : Handle) {o : Op} (ho : o.sends = true) : (step me (.op o) : Act H _).Sends inner := by
  cases o with
  | write | output | sndbuf => exact withPcb_sends _ _
  | _ => cases ho

end Plain

namespace Tls

theorem Feed.push_sends (d : Bytes) : (Feed.push d : Act H Feed (Except Fault Nat)).Sends inner := by
  refine sends_inner ?_
  cases inner with
  | none => exact sends_pure _
  | some id =>
    refine (sends_ask rfl rfl).bind fun n => ?_
    simp only
    split
    · exact sends_pure _
    · refine (sends_ask rfl rfl).bind fun r => ?_
      split <;> exact sends_pure _

theorem Feed.answer_sends (r : RecordReq H.Shared) : (Feed.answer r : Act H Feed r.Ans).Sends inner := by
  cases r with
  | available => exact sends_get.map _
  | peek n => exact sends_get.map _
  | pull n => exact sends_get.bind fun _ => (sends_set _).bind fun _ => sends_pure _
  | push d => exact Feed.push_sends d
  | note n => exact sends_note n
  | shared => exact fun _ _ => trivial
  | setShared => exact fun _ => trivial

/-- An engine sends through the connection below, whatever it is at. -/
theorem drive_sends (s : Session H.Engine) (p : EngineAct H.Shared (H.Engine × α)) :
    (s.drive p : Act H σ (Session H.Engine × α)).Sends inner := by
  have hrun : ∀ p : EngineAct H.Shared (H.Engine × α), (p.run Feed.answer : Act H Feed _).Sends inner := by
    intro p
    induction p with
    | done a => exact sends_pure a
    | ask r next ih => exact (Feed.answer_sends r).bind ih
  exact fun state => Program.Sends.bind (hrun p ⟨s.rx, s.bytesRead⟩) fun _ => trivial

end Tls

namespace Secure

variable {ops : Tls.EngineOps H.Engine H.Shared} {me : Handle}

theorem outputLower_sends (me : Handle) : (outputLower me : Act H Unit).Sends inner := by
  refine sends_inner ?_
  cases inner with
  | none => exact sends_pure _
  | some id =>
    refine (sends_ask rfl rfl).bind fun r => ?_
    split
    · exact sends_pure _
    · exact sends_note _

theorem flush_sends : (flush ops me : Act H (Except Fault Bool)).Sends inner := by
  unfold flush
  refine sends_get.bind fun l => ?_
  split
  · exact sends_pure _
  · refine (Tls.drive_sends _ _).bind fun r => (sends_modify _).bind fun _ => ?_
    split
    · exact sends_pure _
    · exact (outputLower_sends me).bind fun _ => sends_pure _

theorem sendCloseNotify_sends : (sendCloseNotify ops me : Act H Unit).Sends inner := by
  unfold sendCloseNotify
  refine sends_get.bind fun l => ?_
  split
  · split
    · exact sends_pure _
    · refine (sends_modify _).bind fun _ => flush_sends.bind fun r => ?_
      split
      · exact sends_pure _
      · exact sends_note _
  · exact sends_pure _

theorem encrypt_sends (d : Bytes) (clear : Except Fault Bool) : (encrypt ops me d clear : Act H Outcome).Sends inner := by
  unfold encrypt
  split
  · exact sends_pure _
  · exact (sends_note _).bind fun _ => sends_pure _
  · refine sends_get.bind fun l => ?_
    split
    · exact sends_pure _
    · simp only
      refine (sends_modify _).bind fun _ => ?_
      split
      · exact sends_pure _
      · split
        · exact (sends_note _).bind fun _ => sends_pure _
        · exact (sends_modify _).bind fun _ => flush_sends.map _

theorem write_sends (d : Bytes) : (write ops me d : Act H Outcome).Sends inner := by
  unfold write
  refine sends_get.bind fun l => ?_
  split
  · exact sends_pure _
  · exact sends_pure _
  · exact sends_pure _
  · split
    · exact sends_pure _
    · split
      · exact sends_pure _
      · simp only
        split
        · exact flush_sends.bind fun _ => encrypt_sends _ _
        · exact (sends_pure _).bind fun _ => encrypt_sends _ _

/-- A TLS layer sends through the connection below. -/
theorem step_sends {o : Op} (ho : o.sends = true) : (step ops me (.op o) : Act H _).Sends inner := by
  cases o with
  | write d _ => exact write_sends d
  | output => exact flush_sends.map _
  | sndbuf => exact Layer.forward_sends (o := .sndbuf) rfl
  | _ => cases ho

end Secure

end Conduit
