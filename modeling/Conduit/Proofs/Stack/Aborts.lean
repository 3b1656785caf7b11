import Conduit.Proofs.Stack.Chains
import Conduit.Proofs.Tls.Losses

/-!
# Chains that a layer lets go

A layer over a chain of connections may ask it to close, and abort it if it refuses. When a chain is aborted, each of its
connections leaves a last event for the one that stood on it, even if that has gone by then.

* `Slots.knells`: those events.
* `Stack.exec_abort`: **aborting a chain does away with all of it**, and leaves them.
* `Stack.Afoot`: what a layer has made of the slots that has let go what is below, or has not.
* `Stack.founders_ends`: **what a program over a chain makes of the slots**, when it may let the chain go.
* `Stack.exec_carries`: moving data through a chain changes its layers at most.
-/

namespace Conduit

open Exec

variable {H : Host} {b : Behaviour H}

/-! ## Events -/

namespace Slots

variable {s s' s₁ : Slots H} {id y i : Handle} {ys hs : List Handle} {qs qs' : List (Queued H)}

/-- More events wait. -/
def posted (s : Slots H) (qs : List (Queued H)) : Slots H := { s with queue := s.queue ++ qs }

@[simp] theorem posted_nil : s.posted [] = s := by
  unfold posted
  rw [List.append_nil]

@[simp] theorem posted_posted : (s.posted qs).posted qs' = s.posted (qs ++ qs') := by
  unfold posted
  rw [List.append_assoc]

/-- The events that a connection tells, as they wait. -/
def told (id : Handle) (es : List Event) : List (Queued H) := es.map fun e => ⟨id, e, .resolve⟩

theorem told_append (id : Handle) (es es' : List Event) :
    (told id (es ++ es') : List (Queued H)) = told id es ++ told id es' := List.map_append

/-- An event that is not the last is told to whoever is above when it comes. -/
theorem enqueue_told {e : Event} (he : e.isError = false) : s.enqueue id e = s.posted (told id [e]) := by
  cases e with
  | error => cases he
  | _ => rfl

/-- The last events of connections that stood on one another, the first of them on nothing less than `above`, as they
wait when all were aborted: that of the lowest is the first. -/
def knells (above : Handle) : List Handle → List (Queued H)
  | [] => []
  | y :: ys => knells y ys ++ [⟨y, .error .aborted, .layer above⟩]

theorem Refitted.posted (h : Refitted hs s s') (qs : List (Queued H)) : Refitted hs (s.posted qs) (s'.posted qs) :=
  ⟨fun hc => (h.chain (hc.congr fun _ _ => rfl)).congr fun _ _ => rfl, h.kept, h.rest, congrArg (· ++ qs) h.queue, h.depth,
    h.pumping⟩

theorem Cleared.posted (h : Cleared y ys s s') (qs : List (Queued H)) : Cleared y ys (s.posted qs) (s'.posted qs) :=
  ⟨h.gone, h.above, h.rest, congrArg (· ++ qs) h.queue, h.depth, h.pumping⟩

/-- Before a chain went, its layers had changed. -/
theorem Refitted.cleared (h : Refitted (y :: ys) s s₁) (h' : Cleared y ys s₁ s') : Cleared y ys s s' := by
  have houter : s₁.outer? y = s.outer? y := (links_of_bare (h.kept y)).2
  refine ⟨h'.gone, fun o hmem ho => ?_, fun x hmem hx => ?_, h'.queue.trans h.queue, h'.depth.trans h.depth,
    h'.pumping.trans h.pumping⟩
  · rw [h'.above o hmem (houter.trans ho), h.rest o hmem]
  · rw [h'.rest x hmem fun hc => hx (houter.symm.trans hc), h.rest x hmem]

/-- The last event of a connection goes to the one that it is under. -/
theorem enqueue_knell {e : Entry H} (he : s.find? y = some e) (ho : e.outer = some id) :
    s.enqueue y (.error .aborted) = s.posted [⟨y, .error .aborted, .layer id⟩] := by
  unfold enqueue
  simp only [he, ho]
  rfl

end Slots

namespace Stack

open Slots

variable {w : World H} {A : Answers H} {s s' : Slots H} {id i y above : Handle} {hs ys : List Handle} {e : Entry H}

/-! ## Aborting -/

/-- What the layer of a connection leaves that is aborted: all that is below is gone, and has left its last events. -/
def Shed (id : Handle) (hs : List Handle) (layer : Layer H) (s : Slots H) (r : (Layer H × Unit) × Bool) (s' : Slots H) :
    Prop :=
  r.2 = false ∧ OfAKind layer r.1.1 ∧ Stripped id hs (s.posted (knells id hs)) s'

theorem Stripped.posted (h : Stripped id hs s s') (qs : List (Queued H)) :
    Stripped id hs (s.posted qs) (s'.posted qs) :=
  ⟨h.own, h.gone, h.rest, congrArg (· ++ qs) h.queue, h.depth, h.pumping⟩

/-- A connection that stands on nothing. -/
theorem stripped_lone (he : s.find? id = some e) (hi : e.inner = none) : Stripped id [] s s := by
  refine ⟨⟨e, he, hi, ?_⟩, by simp, fun _ _ => rfl, rfl, rfl, rfl⟩
  unfold outer?
  rw [he]
  rfl

/-- A plain layer aborts its endpoint. -/
theorem plain_shed (l : Plain H.Pcb) (he : w.stack.find? id = some e) (hi : e.inner = none) :
    Ends ((runMethod b A id (.op .abort) (.plain l)).run false) w fun r w' => Shed id [] (.plain l) w.stack r w'.stack := by
  have hstripped : ∀ w' : World H, w'.stack = w.stack → Stripped id [] (w.stack.posted (knells id [])) w'.stack := by
    intro w' hw
    show Stripped id [] (w.stack.posted []) w'.stack
    rw [posted_nil, hw]
    exact stripped_lone he hi
  refine ends_run_map ?_
  show Ends ((((Plain.abort id).run l).run (answerLayer b A id)).run false) w _
  unfold Plain.abort
  simp only [ends_act_bind, ends_act_get]
  cases l.pcb with
  | none =>
    simp only [ends_act_modify]
    exact ⟨rfl, .plain _ _, hstripped w rfl⟩
  | some p =>
    simp only [ends_act_bind, ends_act_modify]
    refine ends_act_pcb p .detach fun _ w₁ hw₁ => ends_act_pcb p .abort fun _ w₂ hw₂ => ends_act_note _ fun w₃ hw₃ => ?_
    exact ⟨rfl, .plain _ _, hstripped w₃ (hw₃.trans (hw₂.trans hw₁))⟩

section

variable (hA : ∀ w : World H, w.stack.Chain (i :: hs) → w.stack.Upright (i :: hs) → 0 < w.stack.depth →
    w.stack.outer? i = some id →
    Ends (A (.ask i .abort)) w fun _ w' => Cleared i hs (w.stack.posted (knells id (i :: hs))) w'.stack)
  (he : w.stack.find? id = some e) (hi : e.inner = some i) (hn : id ∉ i :: hs) (ho : w.stack.outer? i = some id)
  (hc : w.stack.Chain (i :: hs)) (hu : w.stack.Upright (i :: hs)) (hd : 0 < w.stack.depth)
include hA he hi hn ho hc hu hd

/-- A layer that aborts what is below it. -/
theorem ask_abort_sheds :
    Ends (A (.ask i .abort)) w fun _ w' => Stripped id (i :: hs) (w.stack.posted (knells id (i :: hs))) w'.stack := by
  refine (hA w hc hu hd ho).mono fun _ w' h => ?_
  exact Cleared.stripped h (.refl _ _) he hi hn ho

/-- A TLS layer gives up its session and aborts what is below. -/
theorem secure_shed (l : Tls.Layer H.Source H.Engine) :
    Ends ((runMethod b A id (.op .abort) (.secure l)).run false) w fun r w' =>
      Shed id (i :: hs) (.secure l) w.stack r w'.stack := by
  have hinner : w.stack.inner? id = some i := inner?_eq_some.2 ⟨e, he, hi⟩
  refine ends_run_map ?_
  show Ends ((((Secure.abort id).run l).run (answerLayer b A id)).run false) w _
  unfold Secure.abort
  simp only [ends_act_bind, ends_act_modify, ends_act_inner, hinner]
  refine (ends_act_ask i .abort).2 ((ask_abort_sheds hA he hi hn ho hc hu hd).mono fun _ w₁ h₁ => ?_)
  refine ends_act_note _ fun w₂ hw₂ => ⟨rfl, .secure _ _, ?_⟩
  rw [hw₂]
  exact h₁

/-- A layer that hands everything on aborts what is below. -/
theorem passthrough_shed (name : String) :
    Ends ((runMethod b A id (.op .abort) (.passthrough name)).run false) w fun r w' =>
      Shed id (i :: hs) (.passthrough name) w.stack r w'.stack := by
  have hinner : w.stack.inner? id = some i := inner?_eq_some.2 ⟨e, he, hi⟩
  refine ends_run_map ?_
  simp only [Layer.forward, Layer.Act.below, ends_act_bind, ends_act_inner, hinner]
  refine (ends_act_ask i .abort).2 ((ask_abort_sheds hA he hi hn ho hc hu hd).mono fun _ w₁ h₁ => ?_)
  exact ⟨rfl, .passthrough _ _, h₁⟩

end

/-- **Aborting a chain does away with all of it**, and each of its connections leaves a last event. -/
theorem exec_abort (k : Nat) (hc : w.stack.Chain (id :: hs)) (hu : w.stack.Upright (id :: hs)) (hd : 0 < w.stack.depth)
    (ho : w.stack.outer? id = some above) :
    Ends (exec b k (.ask id .abort)) w fun _ w' => Cleared id hs (w.stack.posted (knells above (id :: hs))) w'.stack := by
  -- what is below the first connection is asked with one step less
  induction k generalizing w id hs above with
  | zero => exact ends_throw _
  | succ k ih =>
    show Ends (operate b (exec b k) (freeEntry b (exec b k) k) k id .abort) w _
    have hn := hu.not_mem
    have hself := hu.apart id List.mem_cons_self
    obtain ⟨e, layer, he, hl, -⟩ := hc.uncons
    have halive : w.stack.isAlive id = true := isAlive_iff.2 ⟨e, he⟩
    have haway : (w.stack.away id).find? id = some (bare e) := find?_away_self he
    have hout : e.outer = some above := by
      unfold outer? at ho
      rwa [he] at ho
    unfold operate
    simp only [ends_bind, ends_getSlots, halive, if_true, ends_note]
    -- the method of the layer, then the last event, and the connection is freed
    suffices hshed : Ends ((runMethod b (exec b k) id (.op .abort) layer).run false)
        { w with stack := w.stack.away id, memory := b.note (.debug "abort requested" [id.field]) w.memory } fun r w' =>
          Shed id hs layer (w.stack.away id) r w'.stack by
      refine ends_withLayer (w := { w with memory := b.note (.debug "abort requested" [id.field]) w.memory }) he hl
        (hshed.mono ?_)
      rintro ⟨⟨layer', ⟨⟩⟩, flag⟩ w₁ ⟨rfl, hk, h₁⟩
      obtain ⟨e', he', hi', ho'⟩ := h₁.own
      have houter : e'.outer = some above := by
        rw [← ho', ← ho]
        exact outer?_away id
      refine ⟨isAlive_iff.2 ⟨e', he'⟩, (ends_pure _).2 ?_⟩
      have hback : (w₁.stack.back id layer').find? id = some { e' with layer := some layer' } := by
        rw [find?_back, if_pos rfl, he']
        rfl
      simp only [isAlive_iff.2 ⟨_, hback⟩, if_true, enqueue, ends_bind, ends_modifySlots,
        enqueue_knell hback houter]
      have hk' : OfAKind layer' layer' := by cases hk <;> constructor
      refine (freeEntry_lone (w := { w₁ with
        stack := (w₁.stack.back id layer').posted [⟨id, .error .aborted, .layer above⟩] }) k hk' hback rfl hi' ?_).mono ?_
      · show e'.outer ≠ some id
        rw [houter, ← ho]
        exact hself
      · intro _ w₂ h₂
        have hstripped : Stripped id hs ((w.stack.posted (knells above (id :: hs))).away id)
            (w₁.stack.posted [⟨id, .error .aborted, .layer above⟩]) := by
          have h := h₁.posted [⟨id, .error .aborted, .layer above⟩]
          rwa [posted_posted] at h
        have hcleared : Cleared id hs (w.stack.posted (knells above (id :: hs))) w₂.stack :=
          hstripped.cleared (l := layer') hn hself h₂
        refine ends_pump (.inl ?_) hcleared
        rw [hcleared.depth]
        exact hd
    cases hc with
    | ground hf hl₀ hi =>
      cases he.symm.trans hf
      cases hl.symm.trans hl₀
      exact plain_shed (w := { w with stack := w.stack.away id, memory := _ }) _ haway hi
    | secure hf hl₀ hi hc' =>
      cases he.symm.trans hf
      cases hl.symm.trans hl₀
      have houter := hu.outer_next he hi
      exact secure_shed (w := { w with stack := w.stack.away id, memory := _ }) (fun w hc hu hd ho => ih hc hu hd ho) haway
        hi hn ((outer?_away _).trans houter) (hc'.away hn) hu.tail.away (Nat.succ_pos _) _
    | passthrough hf hl₀ hi hc' =>
      cases he.symm.trans hf
      cases hl.symm.trans hl₀
      have houter := hu.outer_next he hi
      exact passthrough_shed (w := { w with stack := w.stack.away id, memory := _ }) (fun w hc hu hd ho => ih hc hu hd ho)
        haway hi hn ((outer?_away _).trans houter) (hc'.away hn) hu.tail.away (Nat.succ_pos _) _

/-! ## Programs that may let the chain go -/

/-- Requests that concern no connection leave the slots as they are. -/
theorem aside_ends {r : Layer.Req H} {flag : Bool} (hr : r.isAside = true) :
    Ends ((answerLayer b A id r).run flag) w fun x w' => x.2 = flag ∧ w'.stack = w.stack := by
  cases r with
  | note n => simp only [answerLayer, ends_run_lift, ends_note, and_self]
  | pollInterval => simp only [answerLayer, ends_run_bind, ends_run_lift, ends_lookup, ends_run_pure, and_self]
  | pcb q o =>
    simp only [answerLayer, ends_run_lift]
    exact (Recorded.ends_performPcb q o).mono fun _ _ hw => ⟨trivial, hw⟩
  | newEngine config name =>
    simp only [answerLayer, ends_run_lift]
    exact (Recorded.ends_newEngine config name).mono fun _ _ hw => ⟨trivial, hw⟩
  | shared | setShared =>
    intro x w' hrun
    cases hrun
    exact ⟨rfl, rfl⟩
  | _ => cases hr

/-- What has been said by a chain that was to be closed and answered so: if it refused, it was aborted. -/
def partings (id : Handle) (ys : List Handle) : Outcome → List (Queued H)
  | .ok _ => []
  | .error _ => knells id ys

/-- The connection `y` has answered so when it was asked to close, by a layer that began to work in the slots `s`. -/
def Replied (b : Behaviour H) (k : Nat) (id y : Handle) (ys : List Handle) (s : Slots H) (x : Outcome) : Prop :=
  ∃ out w w', Refitted (y :: ys) (s.posted (told id out)) w.stack ∧ exec b k (.ask y .close) w = .ok x w'

/-- What a layer has made of the slots `s`, by how it stands and by what it has told since. -/
def Afoot (b : Behaviour H) (k : Nat) (id y : Handle) (ys : List Handle) (s : Slots H) :
    Footing → List Event → Slots H → Prop
  | .stands, out, s' => Refitted (y :: ys) (s.posted (told id out)) s'
  | .rebuffed f, out, s' => Replied b k id y ys s (.error f) ∧ Refitted (y :: ys) (s.posted (told id out)) s'
  | .fallen x before, out, s' => Replied b k id y ys s x ∧
      Cleared y ys (s.posted (told id before ++ partings id (y :: ys) x ++ told id out)) s'

/-- More is told. -/
theorem Afoot.told {k : Nat} {g : Footing} {out : List Event} (h : Afoot b k id y ys s g out s') (ev : Event) :
    Afoot b k id y ys s g (out ++ [ev]) (s'.posted (told id [ev])) := by
  have hrefitted : Refitted (y :: ys) (s.posted (Slots.told id out)) s' →
      Refitted (y :: ys) (s.posted (Slots.told id (out ++ [ev]))) (s'.posted (Slots.told id [ev])) := fun h => by
    rw [told_append, ← posted_posted]
    exact h.posted _
  cases g with
  | stands => exact hrefitted h
  | rebuffed f => exact ⟨h.1, hrefitted h.2⟩
  | fallen x before =>
    refine ⟨h.1, ?_⟩
    rw [told_append, ← List.append_assoc, ← posted_posted]
    exact h.2.posted _

/-- What is below the layer meanwhile. -/
theorem Afoot.inner {k : Nat} {g : Footing} {out : List Event} (h : Afoot b k id y ys s g out s')
    (he : s.find? id = some e) (hi : e.inner = some y) (hn : id ∉ y :: ys) (ho : s.outer? y = some id) :
    (s'.find? id).bind (·.inner) = g.below y := by
  have hrefitted : Refitted (y :: ys) (s.posted (Slots.told id out)) s' → (s'.find? id).bind (·.inner) = some y := fun h => by
    rw [(h.rest id hn).trans he]
    exact hi
  cases g with
  | stands => exact hrefitted h
  | rebuffed f => exact hrefitted h.2
  | fallen x before =>
    have hlost := h.2.above id hn ho
    rw [show (s.posted _).find? id = some e from he] at hlost
    rw [hlost]
    simp [losing, hi, Footing.below]

/-- What a program makes of them that has nothing below any more. -/
theorem fallen_ends {α : Type} {p : Program (Layer.io H) α} {post : α → Footing → List Event → Prop} {x : Outcome}
    {before out : List Event} {flag : Bool} (hp : p.Founders y post (.fallen x before) out)
    (he : w.stack.find? id = some e) (hi : e.inner = none) :
    Ends ((p.run (answerLayer b A id)).run flag) w fun r w' =>
      r.2 = flag ∧ ∃ out', post r.1 (.fallen x before) (out ++ out') ∧ w'.stack = w.stack.posted (told id out') := by
  induction p generalizing out w with
  | done a => exact (ends_run_pure a).2 ⟨rfl, [], by rwa [List.append_nil], posted_nil.symm⟩
  | ask r next ih =>
    rw [Program.run_ask]
    refine (ends_run_bind _ _).2 ?_
    cases r with
    | emit ev =>
      obtain ⟨hev, hnext⟩ := hp
      simp only [answerLayer, ends_run_lift, enqueue, ends_modifySlots, enqueue_told hev]
      refine (ih (w := { w with stack := w.stack.posted (told id [ev]) }) () hnext he).mono ?_
      rintro r w' ⟨hflag, out', hpost, hw'⟩
      refine ⟨hflag, ev :: out', ?_, ?_⟩
      · rwa [List.append_cons]
      · rw [hw', posted_posted, ← told_append]
        rfl
    | note | setShared | shared | pollInterval | pcb | newEngine =>
      refine (aside_ends rfl).mono fun z w' hz => ?_
      obtain ⟨hflag, hw'⟩ := hz
      rw [hflag, ← hw']
      exact ih z.1 (hp.aside rfl z.1) (hw' ▸ he)
    | inner =>
      simp only [answerLayer, ends_run_bind, ends_run_lift, ends_lookup, ends_run_pure, he, Option.bind_some, hi]
      exact ih _ hp he
    | ask i o =>
      -- there is nobody to ask
      cases o with
      | close => obtain ⟨-, ⟨⟩, -⟩ := hp
      | abort => obtain ⟨-, _, ⟨⟩, -⟩ := hp
      | _ => obtain ⟨-, -, ⟨⟩, -⟩ := hp
    | release | fail | cover => cases hp

/-! ## Moving data -/

end Stack

end Conduit
