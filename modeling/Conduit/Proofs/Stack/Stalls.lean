import Conduit.Proofs.Stack.Flowed
import Conduit.Proofs.Stack.Lives
import Conduit.Proofs.Tls.Obliging

/-!
# No delivery stalls

Whenever no event waits and no callback runs, nothing is left over that could still be delivered: no layer awaits a
verdict, and a layer that is read holds data only because the application has refused it.

The engines are asked to yield no empty pieces and to open every whole record (`Fruitful`, `Exhausts`). The layers that an
application brings in are new ones; whatever it does then, from outside or from inside its callbacks, is up to it.

* `Layer.Unstuck`: what a layer is in which nothing stalls.
* `Stack.run_unstuck`: **after all that an application may do, nothing stalls in any layer.**
-/

namespace Conduit

variable {G : Host} {v : Option (Bytes × Outcome)}

/-! ## Layers in which nothing stalls -/

/-- A plain layer in which nothing stalls, where `v` is the last verdict on its data: it awaits none, what it holds begins
with what was refused, and it has told of the end of the stream unless it holds such data. -/
structure Plain.Unstuck {Q : Type} (v : Option (Bytes × Outcome)) (l : Plain Q) : Prop where
  inFlight : l.inFlight = none
  held : l.rxShut = false → l.rx.toList ≠ [] → ∃ d, Refused v d ∧ d ≠ [] ∧ d <+: l.rx.toList
  told : l.rxShut = false → l.finPending = true → l.finDelivered = true ∨ l.rx.toList ≠ []

/-- A TLS layer in which nothing stalls, where `v` is the last verdict on its data: it awaits none; and while it is
established and read, what it holds was refused, or it holds nothing, has no whole record to open, and has told of the end
of the stream if it knows of that. -/
structure Tls.Layer.Unstuck {S E : Type} (whole : E → Bytes → Prop) (v : Option (Bytes × Outcome)) (l : Tls.Layer S E) :
    Prop where
  inFlight : ∀ s, l.session = some s → s.inFlight = none
  reads : l.phase = .established → l.rxState ≠ .closed → ∃ s, l.session = some s
  held : l.phase = .established → l.rxState ≠ .closed → 0 < l.config.options.rxChunkSize → ∀ s, l.session = some s →
    s.rxApp.toList ≠ [] → Refused v s.rxApp.toList
  opened : l.phase = .established → l.rxState ≠ .closed → 0 < l.config.options.rxChunkSize → ∀ s, l.session = some s →
    s.rxApp.toList = [] → ¬ whole s.engine s.rx.toList ∧ l.rxState ≠ .eofQueued

/-- A layer in which nothing stalls. -/
def Layer.Unstuck {H : Host} (whole : H.Engine → Bytes → Prop) (v : Option (Bytes × Outcome)) : Layer H → Prop
  | .plain l => l.Unstuck v
  | .secure l => l.Unstuck whole v
  | .passthrough _ | .custom _ => True

theorem Plain.Flows.unstuck {Q : Type} {l : Plain Q} (h : l.Flows (Refused v) []) : l.Unstuck v := by
  refine ⟨h.inFlight_none, fun ho => h.held ho rfl, fun ho hp => ?_⟩
  cases hd : l.finDelivered with
  | true => exact .inl rfl
  | false => exact .inr (h.fin ho hp hd)

theorem Tls.Session.Owes.inFlight_none {E : Type} {s : Session E} (h : s.Owes []) : s.inFlight = none := by
  rcases h with ⟨-, hi⟩ | ⟨d, hd, -⟩
  · exact hi
  · cases hd

theorem Tls.Layer.Flows.unstuck {S E : Type} {whole : E → Bytes → Prop} {l : Tls.Layer S E}
    (h : l.Flows whole (Refused v) []) : l.Unstuck whole v := by
  refine ⟨fun s hs => ?_, fun hp hr => ?_, fun hp hr hn s hs hne => ?_, fun hp hr hn s hs hnil => ?_⟩
  · by_cases hr : l.Reading
    · obtain ⟨s', hs', howes⟩ := h.owes hr
      cases hs.symm.trans hs'
      exact howes.inFlight_none
    · exact h.calm hr s hs
  · obtain ⟨s, hs, -⟩ := h.owes ⟨hp, hr⟩
    exact ⟨s, hs⟩
  · rcases h.drained ⟨hp, hr⟩ hn rfl s hs with ⟨-, hd⟩ | ⟨hnil, -⟩
    · exact hd
    · exact absurd hnil hne
  · rcases h.drained ⟨hp, hr⟩ hn rfl s hs with ⟨hne, -⟩ | ⟨-, hd⟩
    · exact absurd hnil hne
    · exact hd

theorem Layer.Flowing.unstuck {H : Host} {whole : H.Engine → Bytes → Prop} {layer : Layer H}
    (h : layer.Flowing whole (Refused v) []) : layer.Unstuck whole v := by
  cases layer with
  | plain l => exact Plain.Flows.unstuck h
  | secure l => exact Tls.Layer.Flows.unstuck h
  | passthrough name => trivial
  | custom l => trivial

/-! ## Whole runs -/

namespace Stack

open Mark Recorded

variable {b : Behaviour G.diarist} {whole : G.diarist.Engine → Bytes → Prop} {w w' : World G.diarist}

/-- Of a stack without connections all is known. -/
theorem watched_empty (hw : w.stack = {}) (x : Handle) : Watched whole x [] [] w := by
  refine ⟨fun ha => ?_, fun _ => ?_, fun _ e layer he => ?_⟩
  · rw [hw, Slots.isAlive_eq_false.2 (find?_empty x)] at ha
    cases ha
  · rw [hw]
    rfl
  · rw [hw, find?_empty] at he
    cases he

/-- **After all that an application may do, nothing stalls in any layer**: no event waits, and what each layer holds was
refused by the application, which keeps a diary of its verdicts. A connection is known by its handle, which must not have
been given out twice. -/
theorem run_unstuck [IsEmpty G.Layer] {α : Type} {a : α} (fuel : Nat) (p : Act G.diarist α)
    (hx : Tls.Exhausts b.engine whole) (hf : Tls.Fruitful b.engine)
    (hb : ∀ code call, (b.callback code call).Asks Brings) (hp : p.Asks Brings) (hw : w.stack = {})
    (h : Stack.run b.diarist fuel (withDiary p) w = .ok a w') :
    w'.stack.queue = [] ∧ ∃ t, Recorded.run b.diarist fuel (withDiary p) w = .ok (a, t) w' ∧
      ∀ x, (births t).count x ≤ 1 → ∀ e layer, w'.stack.find? x = some e → e.layer = some layer →
        layer.Unstuck whole (lastVerdict x w'.memory.2) := by
  obtain ⟨t, ht⟩ := Recorded.exists_record (Recorded.forget_run fuel (withDiary p)) h
  have hidle : w.stack.Idle := hw ▸ idle_empty
  have hcarried := Recorded.run_ends fuel (withDiary p) hidle (a, t) w' ht
  have hqueue : w'.stack.queue = [] := hcarried.settled rfl (by rw [hw])
  refine ⟨hqueue, t, ht, fun x hn e layer he hl => ?_⟩
  -- data flows through the layer, and nothing of it waits
  have hserved := (exec_serves hb hx hf fuel).withDiary (x := x) hp hidle (by rw [hw]; exact nofun) (a, t) w' ht
  have hwatched := hserved.tended.watched List.not_mem_nil [] [] (fun _ => rfl) (watched_empty hw x)
  have hnone : w'.stack.parcels x = [] := by
    unfold Slots.parcels
    rw [hqueue]
    rfl
  have hflow := hwatched.flowing hn e layer he hl
  rw [hnone] at hflow
  exact hflow.unstuck

/-! A TLS session over an endpoint, and an application that refuses the plaintext. -/

/-- A host with toy engines. -/
@[reducible] def fussy : Host where
  Memory := Unit
  Code := Unit
  Layer := Empty
  Pcb := Unit
  Engine := Tls.Toy.Engine
  Shared := Unit
  Source := Tls.Toy.Profile

instance : IsEmpty fussy.Layer := inferInstanceAs (IsEmpty Empty)

/-- Whatever it is called for, the application refuses it. -/
def fussing : Behaviour fussy.diarist where
  callback _ _ := .done ((), .error .wouldBlock)
  layer l := nomatch l
  layerName l := nomatch l
  pcb _ o m := (Tls.Toy.obligingPcb o, m)
  note _ m := m
  engine := Tls.Toy.ops
  newEngine _ _ v := (.error .invalidArgument, v)

/-- A client shakes hands over an endpoint, and gets two bytes of plaintext. -/
def fuss : Act fussy.diarist Unit :=
  .ask (.openPcb (.external ())) fun lower =>
  .ask (.wrap lower (.secure Tls.Toy.client)) fun
    | .error _ => .done ()
    | .ok upper =>
      .ask (.register upper .recv ()) fun _ =>
      .ask (.ask lower (.lower (.recv (Tls.Toy.letters 's' 1)))) fun _ =>
      .ask (.ask lower (.lower (.recv (Tls.Toy.record 0x17 ([104, 105] ++ List.replicate 8 0xAA))))) fun _ => .done ()

/-- An established TLS layer holds these bytes of plaintext. -/
def keeping (x : Handle) (bytes : Bytes) (w : World fussy.diarist) : Bool :=
  match (w.stack.find? x).bind (·.layer) with
  | some (.secure l) => l.phase = .established && l.session.map (·.rxApp.toList) = some bytes
  | _ => false

theorem of_keeping {x : Handle} {bytes : Bytes} {w : World fussy.diarist} (h : keeping x bytes w = true) :
    ∃ e l, w.stack.find? x = some e ∧ e.layer = some (.secure l) ∧ l.phase = .established ∧
      l.session.map (·.rxApp.toList) = some bytes := by
  unfold keeping at h
  split at h
  · rename_i l hl
    rw [Bool.and_eq_true, decide_eq_true_eq, decide_eq_true_eq] at h
    obtain ⟨e, he, hel⟩ := Option.bind_eq_some_iff.1 hl
    exact ⟨e, l, he, hel, h.1, h.2⟩
  · cases h

theorem run_unstuck_fuss : ∃ w' e l,
    Stack.run fussing.diarist 30 (withDiary fuss) { shared := (), memory := ((), []) } = .ok () w' ∧
    w'.stack.queue = [] ∧ w'.stack.find? ⟨1, 0⟩ = some e ∧ e.layer = some (.secure l) ∧ l.phase = .established ∧
    l.session.map (·.rxApp.toList) = some [104, 105] ∧
    l.Unstuck (fun _ c => Tls.Toy.cut? c ≠ none) (some ([104, 105], .error .wouldBlock)) := by
  have hreaches : Exec.reaches (Stack.run fussing.diarist 30 (withDiary fuss)) { shared := (), memory := ((), []) }
      (fun _ w => keeping ⟨1, 0⟩ [104, 105] w &&
        lastVerdict ⟨1, 0⟩ w.memory.2 = some ([104, 105], .error .wouldBlock)) = true := by
    decide +kernel
  obtain ⟨_, w', hrun, hend⟩ := Exec.exists_of_reaches hreaches
  rw [Bool.and_eq_true, decide_eq_true_eq] at hend
  obtain ⟨e, l, he, hl, hphase, hrx⟩ := of_keeping hend.1
  have hnew : Tls.Toy.client.Fresh := ⟨rfl, fun s hs => ⟨Tls.Toy.young, (Option.some.inj hs).symm⟩⟩
  have hbrings : fuss.Asks Brings := by
    refine ⟨trivial, fun lower => ⟨hnew, fun r => ?_⟩⟩
    cases r with
    | error f => trivial
    | ok upper => exact ⟨trivial, fun _ => ⟨trivial, fun _ => ⟨trivial, fun _ => trivial⟩⟩⟩
  obtain ⟨hqueue, t, ht, hunstuck⟩ := run_unstuck (b := fussing) 30 fuss Tls.Toy.exhausts Tls.Toy.fruitful
    (fun _ _ => trivial) hbrings rfl hrun
  have hcount : (births t).count ⟨1, 0⟩ ≤ 1 := by
    have hrecord : t = recordOf (Recorded.run fussing.diarist 30 (withDiary fuss) { shared := (), memory := ((), []) }) := by
      rw [ht]
      rfl
    rw [hrecord]
    decide +kernel
  refine ⟨w', e, l, hrun, hqueue, he, hl, hphase, hrx, ?_⟩
  rw [← hend.2]
  exact hunstuck _ hcount e (.secure l) he hl

end Stack

end Conduit
