import Conduit.Proofs.Stack.Forgotten
import Conduit.Proofs.Stack.Requests

/-!
# The lives of connections

What holds of every run of a stack whose layers are plain, secure, or hand everything on.

* `Stack.run_inOrder`: **whatever an application does, from outside or from inside its callbacks, the slots are in order
  whenever it is done.**
* `Stack.run_told`: **the application learns of the end of a connection once, and last.**
-/

namespace Conduit

open Slots

variable {H : Host} {b : Behaviour H} {s : Slots H} {w w' : World H}

/-! ## The slots between requests -/

/-- The connections are counted and the vacant slots known, each once. Two connections agree on which of them is above,
and none is below itself. Every layer is in place, no event waits, and nothing runs. -/
structure Slots.InOrder (s : Slots H) : Prop where
  live : s.live = s.slots.toList.countP (·.entry.isSome)
  nodup : s.free.Nodup
  mem_free : ∀ i, i ∈ s.free ↔ ∃ slot, s.slots[i]? = some slot ∧ slot.entry = none
  agree : ∀ x y, s.inner? x = some y ↔ s.isAlive y = true ∧ s.outer? y = some x
  acyclic : ∀ x, ¬ Relation.TransGen s.On x x
  home : ∀ x e, s.find? x = some e → e.layer.isSome = true
  queue : s.queue = []
  depth : s.depth = 0
  pumping : s.pumping = false

theorem Slots.Idle.inOrder (h : s.Idle) (hp : s.pumping = false) : s.InOrder := by
  have hs := h.sound
  refine ⟨?_, hs.nodup, fun i => ?_, fun x y => ?_, hs.acyclic, fun x e he => ?_, h.settled hp, hs.depth, hp⟩
  · rw [hs.live, occupied, List.count, List.countP_map]
    refine List.countP_congr fun slot _ => ?_
    simp
  · rw [hs.mem_free, occupied_getElem?]
    simp [Option.map_eq_some_iff]
  · rw [hs.agree]
    constructor
    · intro ho
      obtain ⟨e, he, -⟩ := outer?_eq_some.1 ho
      exact ⟨isAlive_iff.2 ⟨e, he⟩, ho⟩
    · exact fun h => h.2
  · rw [Option.isSome_iff_ne_none]
    intro hl
    exact List.not_mem_nil ((hs.home x e he).1 hl)

theorem find?_empty (x : Handle) : ({} : Slots H).find? x = none := by
  unfold find?
  simp

/-- A stack without connections is in order. -/
theorem idle_empty : ({} : Slots H).Idle := by
  have hon : ∀ x y, ¬ ({} : Slots H).On x y := by
    intro x y h
    unfold On inner? at h
    rw [find?_empty] at h
    cases h
  refine ⟨⟨⟨⟨rfl, List.nodup_nil, fun i => by simp [occupied]⟩, fun x y => ?_, fun x h => ?_⟩, fun x e he => ?_,
    fun x hx => ?_, rfl⟩, fun _ => rfl⟩
  · unfold inner? outer?
    rw [find?_empty, find?_empty]
    simp
  · obtain ⟨y, hxy, -⟩ := Relation.TransGen.head'_iff.1 h
    exact hon x y hxy
  · rw [find?_empty] at he
    cases he
  · cases hx

namespace Stack

/-- **Whatever an application does, from outside or from inside its callbacks, the slots are in order whenever it is
done.** -/
theorem run_inOrder [IsEmpty H.Layer] {α : Type} {a : α} (fuel : Nat) (p : Act H α) (hw : w.stack = {})
    (h : Stack.run b fuel p w = .ok a w') : w'.stack.InOrder := by
  obtain ⟨t, ht⟩ := Recorded.exists_record (Recorded.forget_run fuel p) h
  have hidle : w.stack.Idle := hw ▸ idle_empty
  have hcarried := Recorded.run_ends fuel p hidle (a, t) w' ht
  refine hcarried.idle.inOrder ?_
  rw [hcarried.pumping, hw]

/-! A callback that aborts another connection, and a layer over a TCP endpoint whose end it is called for. -/

/-- A host whose callbacks abort the connection that they have captured. -/
def meddler : Host where
  Memory := Unit
  Code := Handle
  Layer := Empty
  Pcb := Empty
  Engine := Empty
  Shared := Unit
  Source := Empty

instance : IsEmpty meddler.Layer := inferInstanceAs (IsEmpty Empty)

/-- What it brings along. -/
def meddling : Behaviour meddler where
  callback other _ := .ask (.ask other .abort) fun _ => .done (other, .ok ())
  layer l := nomatch l
  layerName l := nomatch l
  pcb p := nomatch p
  note _ m := m
  engine := {
    isHandshaking := fun e => nomatch e
    handshake := fun e => nomatch e
    decrypt := fun e => nomatch e
    encrypt := fun e => nomatch e
    flush := fun e => nomatch e
    wantsWrite := fun e => nomatch e
    buffered := fun e => nomatch e
    closeNotify := fun e => nomatch e
    info := fun e => nomatch e }
  newEngine _ _ v := (.error .invalidArgument, v)

/-- A connection over an endpoint is wrapped, and aborted from above; the callback for its end aborts another one. A
third stays. -/
def meddle : Act meddler Unit :=
  .ask .newPcb fun i =>
  .ask (.openPcb (.loopback i)) fun lower =>
  .ask (.wrap lower (.passthrough "upper")) fun
    | .error _ => .done ()
    | .ok upper =>
      .ask (.insert (.passthrough "other")) fun other =>
      .ask (.insert (.passthrough "third")) fun _ =>
      .ask (.register upper .err other) fun _ =>
      .ask (.ask upper .abort) fun _ => .done ()

theorem run_inOrder_meddle : ∃ w', Stack.run meddling 20 meddle { shared := (), memory := () } = .ok () w' ∧
    w'.stack.live = 1 ∧ w'.stack.free = [2, 1, 0] ∧ w'.stack.InOrder := by
  have hreaches : Exec.reaches (Stack.run meddling 20 meddle) { shared := (), memory := () }
      (fun _ w => w.stack.live = 1 && w.stack.free = [2, 1, 0]) = true := by decide +kernel
  obtain ⟨_, w', hrun, hend⟩ := Exec.exists_of_reaches hreaches
  simp only [Bool.and_eq_true, decide_eq_true_eq] at hend
  exact ⟨w', hrun, hend.1, hend.2, run_inOrder 20 meddle rfl hrun⟩

end Stack

/-! ## The end of a connection -/

namespace Mark

variable {t : List (Mark H)} {id : Handle}

/-- The calls by which the application was told of the end of a connection: for what reason, and with which callback. -/
def noticesOf (id : Handle) (t : List (Mark H)) : List (Handle × Fault × H.Code) :=
  (notices t).filter fun x => x.1 = id

/-- What a record says of a connection that has had none above it when it came to its end. -/
structure LastWord (id : Handle) (t : List (Mark H)) : Prop where
  /-- The callback for its end is called once at most. -/
  once : (noticesOf id t).length ≤ 1
  /-- It is called if the connection was aborted with that callback registered. -/
  aborted : ∀ code, .aborted id (some code) ∈ t → noticesOf id t = [(id, .aborted, code)]
  /-- It is called if the connection ended for any reason with that callback registered. -/
  ended : ∀ reason code, .ended id reason (some code) ∈ t → noticesOf id t = [(id, reason, code)]
  /-- It is not called if the connection was closed. -/
  closed : .closed id ∈ t → noticesOf id t = []
  /-- The connection is gone when it is called. -/
  told : ∀ alive reason code, .told id alive reason code ∈ t → alive = false
  /-- Any other callback is called while the connection is there, -/
  called : ∀ alive call, .called id alive call ∈ t → alive = true
  /-- and none after it has gone. -/
  last : t.Pairwise fun m n => m = .freed id → ∀ alive call, n ≠ .called id alive call

/-- Only what has come to its end is to be told. -/
theorem due_sublist (t : List (Mark H)) : ((due t).map Prod.fst).Sublist (ends t) := by
  induction t with
  | nil => exact .slnil
  | cons m t ih =>
    cases m with
    | ended id reason code =>
      cases code with
      | none => exact ih.cons _
      | some code => exact ih.cons_cons _
    | _ => exact ih

theorem count_due_le (t : List (Mark H)) (id : Handle) :
    ((due t).filter fun x => x.1 = id).length ≤ (ends t).count id := by
  have hcount : ((due t).filter fun x => x.1 = id).length = ((due t).map Prod.fst).count id := by
    rw [List.count, List.countP_map, List.countP_eq_length_filter]
    congr 1
  rw [hcount]
  exact (due_sublist t).count_le id

end Mark

/-- Nothing has happened to a stack without connections. -/
theorem chronicle_empty (id : Handle) : Chronicle id ([] : List (Mark H)) {} := by
  have hdead : ({} : Slots H).isAlive id = false := isAlive_eq_false.2 (find?_empty id)
  constructor <;> simp [hdead, Mark.ends, Mark.due, Mark.notices, outstanding]

open Mark in
/-- A record that is true of slots in which nothing waits has the last word on a connection. -/
theorem Chronicle.lastWord {t : List (Mark H)} {id : Handle} (hc : Chronicle id t s) (hq : s.queue = []) :
    LastWord id t := by
  -- nothing waits, so whoever was to be told was told
  have hdue : Mark.due t = notices t := by
    rw [hc.due]
    unfold Slots.outstanding
    rw [hq]
    exact List.append_nil _
  have hof : noticesOf id t = (Mark.due t).filter fun x => x.1 = id := by
    unfold noticesOf
    rw [hdue]
  have hle : (noticesOf id t).length ≤ 1 := by
    rw [hof]
    exact Nat.le_trans (count_due_le t id) hc.once
  -- what is in a list of one is that one
  have hended : ∀ reason code, .ended id reason (some code) ∈ t → noticesOf id t = [(id, reason, code)] := by
    intro reason code hm
    have hmem : (id, reason, code) ∈ noticesOf id t := by
      rw [hof, List.mem_filter]
      exact ⟨mem_due.2 hm, by simp⟩
    obtain ⟨x, hx⟩ := List.length_eq_one_iff.1 (Nat.le_antisymm hle (List.length_pos_of_mem hmem))
    rw [hx, List.mem_singleton] at hmem
    rw [hx, hmem]
  refine ⟨hle, fun code hm => hended _ _ (hc.aborted _ hm), hended, fun hm => ?_, hc.told, hc.called, hc.last⟩
  -- a connection that was closed has not come to its end
  have hnone := (hc.closed hm).2
  refine List.length_eq_zero_iff.1 (Nat.le_zero.1 ?_)
  rw [hof, ← List.count_eq_zero_of_not_mem hnone]
  exact count_due_le t id

namespace Stack

open Mark in
/-- **The application learns of the end of a connection once, and last**: of one that was aborted, or has failed, with a
callback for that registered, and not of one that was closed; and once the connection is gone, nothing else is heard of
it. A connection is known by its handle, which must not have been given out twice. -/
theorem run_told [IsEmpty H.Layer] {α : Type} {a : α} (fuel : Nat) (p : Act H α) (hw : w.stack = {})
    (h : Stack.run b fuel p w = .ok a w') :
    ∃ t, Recorded.run b fuel p w = .ok (a, t) w' ∧ ∀ id, (births t).count id ≤ 1 → LastWord id t := by
  obtain ⟨t, ht⟩ := Recorded.exists_record (Recorded.forget_run fuel p) h
  refine ⟨t, ht, fun id hid => ?_⟩
  have hidle : w.stack.Idle := hw ▸ idle_empty
  have hcarried := Recorded.run_ends fuel p hidle (a, t) w' ht
  have hbegin : Chronicle id ([] : List (Mark H)) w.stack := hw ▸ chronicle_empty id
  have hqueue : w'.stack.queue = [] := hcarried.settled rfl (by rw [hw])
  exact (hcarried.keeps id [] hid hbegin).lastWord hqueue

/-- Whether a mark says that the first connection of `meddle` is to be aborted, and who is told of it. -/
def meddled : Mark meddler → Bool
  | .aborted ⟨1, 0⟩ (some ⟨2, 0⟩) => true
  | _ => false

/-- The record of a run, if it ends. -/
def recordOf {α : Type} : EStateM.Result Halt (World H) (α × List (Mark H)) → List (Mark H)
  | .ok r _ => r.2
  | .error _ _ => []

open Mark in
theorem run_told_meddle : ∃ w' t, Stack.run meddling 20 meddle { shared := (), memory := () } = .ok () w' ∧
    Recorded.run meddling 20 meddle { shared := (), memory := () } = .ok ((), t) w' ∧
    (births t).count ⟨1, 0⟩ ≤ 1 ∧ .aborted ⟨1, 0⟩ (some ⟨2, 0⟩) ∈ t ∧
    noticesOf ⟨1, 0⟩ t = [(⟨1, 0⟩, .aborted, ⟨2, 0⟩)] := by
  have hreaches : Exec.reaches (Stack.run meddling 20 meddle) { shared := (), memory := () } (fun _ _ => true) = true := by
    decide +kernel
  obtain ⟨_, w', hrun, -⟩ := Exec.exists_of_reaches hreaches
  obtain ⟨t, ht, hlast⟩ := run_told 20 meddle rfl hrun
  have hrecord : t = recordOf (Recorded.run meddling 20 meddle { shared := (), memory := () }) := by
    rw [ht]
    rfl
  have hcount : (births t).count ⟨1, 0⟩ ≤ 1 := by
    rw [hrecord]
    decide +kernel
  have haborted : .aborted ⟨1, 0⟩ (some ⟨2, 0⟩) ∈ t := by
    have hany : t.any meddled = true := by
      rw [hrecord]
      decide +kernel
    obtain ⟨m, hm, hmatch⟩ := List.any_eq_true.1 hany
    unfold meddled at hmatch
    split at hmatch
    · exact hm
    · cases hmatch
  exact ⟨w', t, hrun, ht, hcount, haborted, (hlast _ hcount).aborted _ haborted⟩

end Stack

end Conduit
