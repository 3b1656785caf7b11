import Conduit.Proofs.Loopback.Edits
import Conduit.Proofs.Loopback.Plans
import Mathlib.Algebra.BigOperators.Group.Finset.Basic
import Mathlib.Algebra.Order.BigOperators.Group.Finset

/-!
# Nets that come to a standstill

Each step takes something off the work that a net has before it: an action that is pending, a goodbye that is not said, or
data that is not sent. Data counts twice, because a report of it is left behind when it is sent; so does a connection that
waits to be accepted, because its end may have to be told.

* `Net.work`: the work that a net has before it.
* `Net.work_next`: **each step leaves less of it.**
* `Net.Standstill`: nothing is pending, every goodbye that was due is said, and data is held back by a full window only.
* `Net.standstill`: **so it is when there is no step.**
-/

namespace Conduit

/-- How much work an event may leave to the net: a connection that nobody accepts is aborted. -/
def Event.toll : Event → Nat
  | .accept _ => 1
  | _ => 0

namespace Loopback

open Finset

variable {o : Options} {n n' : Net} {i j k len : Nat} {f : Pcb → Pcb} {a : Action} {p q : Pcb}

/-! ## Work -/

/-- How much work it is to settle an action. -/
def Action.weight : Action → Nat
  | .accept _ _ => 2
  | .connected _ | .reset _ | .sent _ _ => 1

/-- The work that an endpoint has before it. -/
def Pcb.work (p : Pcb) : Nat := 2 * p.unsent.size + if p.finSent then 0 else 1

/-- How much work a delivery may cause. -/
def Delivery.weight : Delivery → Nat
  | .accept _ => 1
  | .event e => e.toll
  | .reset | .nothing => 0

namespace Net

/-- The work that a net has before it. -/
@[irreducible]
def work (n : Net) : Nat := (n.actions.map Action.weight).sum + ∑ i ∈ range n.pcbs.size, (n.pcb i).work

/-- Nothing else of a net is work. -/
theorem work_congr (hp : n'.pcbs = n.pcbs) (ha : n'.actions = n.actions) : n'.work = n.work := by
  unfold work pcb
  rw [hp, ha]

theorem work_pend (a : Action) : (n.pend a).work = n.work + a.weight := by
  unfold work
  rw [actions_pend, List.map_append, List.sum_append, List.map_singleton, List.sum_singleton]
  simp only [size_pend, pcb_pend]
  omega

theorem work_update (hi : i < n.pcbs.size) : (n.update i f).work + (n.pcb i).work = n.work + (f (n.pcb i)).work := by
  have hmem : i ∈ range n.pcbs.size := mem_range.2 hi
  have hrest : ∑ j ∈ (range n.pcbs.size).erase i, ((n.update i f).pcb j).work =
      ∑ j ∈ (range n.pcbs.size).erase i, (n.pcb j).work :=
    sum_congr rfl fun j hj => by rw [pcb_update_of_ne (ne_of_mem_erase hj)]
  unfold work
  rw [size_update, actions_update, ← add_sum_erase _ _ hmem, ← add_sum_erase _ (fun j => (n.pcb j).work) hmem,
    pcb_update_self hi, hrest]
  omega

theorem work_update_le (hf : ∀ p, (f p).work ≤ p.work) : (n.update i f).work ≤ n.work := by
  unfold work
  rw [size_update, actions_update]
  refine Nat.add_le_add_left (sum_le_sum fun j _ => ?_) _
  refine pcb_update_elim (P := fun q => q.work ≤ _) (Nat.le_refl _) fun hj => ?_
  subst hj
  exact hf _

theorem work_release (n : Net) (i : Nat) : (n.release i).work ≤ n.work := by
  obtain ⟨ls, hr⟩ := n.release_eq i
  have hle : (n.update i Pcb.released).work ≤ n.work := by
    refine work_update_le fun p => ?_
    show 2 * 0 + _ ≤ 2 * p.unsent.size + _
    exact Nat.add_le_add_right (by omega) _
  have hsame : (({ n with listeners := ls } : Net).update i Pcb.released).work = (n.update i Pcb.released).work :=
    work_congr rfl rfl
  rw [hr, hsame]
  exact hle

/-- An end that is told is pending. -/
theorem work_abort (n : Net) (i : Nat) : (n.abort i).work ≤ n.work + 1 := by
  have hreset : (n.resetPeer i).work ≤ n.work + 1 := by
    unfold resetPeer
    split
    · split
      · exact Nat.le_of_eq (work_pend _)
      · omega
    · omega
  exact Nat.le_trans (work_release _ i) hreset

theorem work_recved (h : n.recved i len = .ok n') : n'.work ≤ n.work := by
  unfold recved at h
  split at h
  · cases h
  · cases h
    exact work_update_le fun _ => Nat.le_refl _

/-! ## Steps -/

/-- An action is settled. -/
theorem work_settle (n : Net) (a : Action) : (n.settle a).1.work + 1 + (n.settle a).2.2.weight ≤ n.work + a.weight := by
  cases a with
  | connected i =>
    have hle : (n.update i fun p => { p with state := .established }).work ≤ n.work := work_update_le fun _ => Nat.le_refl _
    exact Nat.add_le_add_right hle 1
  | accept listener new => exact Nat.le_refl _
  | sent i len => exact Nat.le_refl _
  | reset i =>
    have howned : ((n.release i).update i fun q => { q with owner := (n.pcb i).owner }).work ≤ (n.release i).work :=
      work_update_le fun _ => Nat.le_refl _
    have hle := Nat.le_trans howned (work_release n i)
    have hweight : (n.settle (.reset i)).2.2.weight = 0 := by
      simp only [settle]
      split <;> rfl
    rw [hweight]
    exact Nat.add_le_add_right hle 1

/-- A segment is sent: two for each byte of it, and one for the report. -/
theorem work_post {unread : Bool} (hi : i < n.pcbs.size) (hw : (n.pcb i).unsent.WellFormed)
    (hlen : len ≤ (n.pcb i).unsent.size) : (n.post i j len unread).work + 2 * len ≤ n.work + 1 := by
  have hread : ((n.pcb i).unsent.read len).1.length = len := by
    obtain ⟨htake, -, -⟩ := Segments.read_eq hw (n := len)
    rw [htake, List.length_take, ← hw.size_eq]
    exact Nat.min_eq_left hlen
  have hsize : ((n.pcb i).unsent.read len).2.size = (n.pcb i).unsent.size - len := by
    show ((n.pcb i).unsent.advance _).size = _
    rw [Segments.size_advance]
    exact congrArg _ hread
  have hdepart : (n.depart i len).work + 2 * len ≤ n.work := by
    have hupdate := work_update (f := fun p => { p with
      splitPlan := planAfter len p.splitPlan, unsent := (p.unsent.read len).2 }) hi
    unfold Pcb.work at hupdate
    dsimp only at hupdate
    rw [hsize] at hupdate
    unfold depart
    omega
  have hreport : (n.post i j len unread).work ≤ ((n.depart i len).pend (.sent i len)).work :=
    work_update_le fun _ => Nat.le_refl _
  rw [work_pend] at hreport
  have hsent : (Action.sent i len).weight = 1 := rfl
  omega

/-- Data is sent, or a goodbye is said. -/
theorem work_transmit {r : Result (Nat × Delivery)} (hw : (n.pcb i).unsent.WellFormed) (h : n.transmit i = some r) :
    r.net.work + 1 + r.value.2.weight ≤ n.work := by
  unfold transmit at h
  split at h
  · cases h
  · rename_i j hp
    have hi := lt_size_of_peer hp
    split at h
    · cases h
    · split at h
      · unfold sendSegment at h
        dsimp only at h
        have hheld := n.room_le (n.pcb i) (n.pcb j)
        generalize n.room (n.pcb i) (n.pcb j) = len at h hheld
        split at h
        · cases h
        · rename_i hpos
          have hpost : ∀ unread, (n.post i j len unread).work + 1 ≤ n.work := fun unread => by
            have hpost : (n.post i j len unread).work + 2 * len ≤ n.work + 1 := work_post hi hw hheld
            omega
          split at h
          · cases h
            exact hpost true
          · cases h
            exact hpost false
      · split at h
        · rename_i hfin
          have hsent : (n.pcb i).finSent = false := by
            rw [Bool.and_eq_true, Bool.not_eq_true'] at hfin
            exact hfin.2
          have hsaid : (n.update i fun p => { p with
              finSent := true
              state := afterFinSent p.state
              owner := if afterFinSent p.state = .closed then none else p.owner }).work + 1 ≤ n.work := by
            have hupdate := work_update (f := fun p => { p with
              finSent := true
              state := afterFinSent p.state
              owner := if afterFinSent p.state = .closed then none else p.owner }) hi
            unfold Pcb.work at hupdate
            rw [hsent] at hupdate
            dsimp only at hupdate
            simp only [Bool.false_eq_true, if_false, if_true] at hupdate
            omega
          have hheard : (n.sendFin i j).net.work + 1 ≤ n.work := by
            refine Nat.le_trans (Nat.add_le_add_right ?_ 1) hsaid
            unfold sendFin
            dsimp only
            split
            · exact work_update_le fun _ => Nat.le_refl _
            · exact work_update_le fun _ => Nat.le_refl _
          cases h
          rcases sendFin_value n i j with hv | hv
          · rw [hv]
            exact hheard
          · rw [hv]
            exact hheard
        · cases h

/-- **Each step leaves less work.** -/
theorem work_next {r : Result (Nat × Delivery)} (hw : ∀ i, (n.pcb i).unsent.WellFormed) (h : n.next = some r) :
    r.net.work + 1 + r.value.2.weight ≤ n.work := by
  unfold next at h
  split at h
  · rename_i a rest ha
    cases h
    have hrest : ({ n with actions := rest } : Net).work + a.weight = n.work := by
      unfold work
      rw [ha, List.map_cons, List.sum_cons]
      simp only [pcb]
      omega
    have hsettle := work_settle { n with actions := rest } a
    rw [hrest] at hsettle
    exact hsettle
  · obtain ⟨i, r', cursor, ht, rfl⟩ := transmitFrom_some h
    have hsame : ({ r'.net with cursor } : Net).work = r'.net.work := work_congr rfl rfl
    show ({ r'.net with cursor } : Net).work + 1 + r'.value.2.weight ≤ n.work
    rw [hsame]
    exact work_transmit (hw i) ht

/-! ## No step -/

/-- A net that stands still. -/
structure Standstill (n : Net) : Prop where
  actions : n.actions = []
  /-- An endpoint that has sent all its data has said its goodbye, if one was due. -/
  said : ∀ i j, (n.pcb i).peer = some j → (n.pcb i).state ≠ .closed → (n.pcb i).unsent.toList = [] →
    (n.pcb i).finQueued = true → (n.pcb i).finSent = true
  /-- One that has not is joined to one that reads, and that has as much as it may be sent. -/
  full : ∀ i j, (n.pcb i).peer = some j → (n.pcb i).state ≠ .closed → (n.pcb i).unsent.toList ≠ [] →
    (n.pcb j).state ≠ .closed ∧ (n.pcb j).rxClosed = false ∧
      n.options.window ≤ (n.pcb j).received - (n.pcb j).acked

/-- A net whose endpoints are within their bounds, and whose plans of sizes leave something to send. -/
structure Ready (o : Options) (n : Net) : Prop where
  options : n.options = o
  fits : ∀ i, (n.pcb i).Fits o
  plan : ∀ i, ∀ f ∈ (n.pcb i).splitPlan, 0 < f

theorem ready_new (o : Options) : ({ options := o } : Net).Ready o :=
  ⟨rfl, fun _ => Pcb.fits_default, fun _ _ hf => absurd hf List.not_mem_nil⟩

/-- A plan is kept, or dropped with its endpoint. -/
theorem Ready.follows (hn : n.Ready o) (h : n.Follows n') : n'.Ready o := by
  refine ⟨h.options.trans hn.options, fun i => ?_, fun i f hf => ?_⟩
  · have hfits := (h.pcb i).fits
    rw [hn.options] at hfits
    exact hfits (hn.fits i)
  · rcases (h.pcb i).plan with hplan | ⟨hplan, -⟩
    · exact hn.plan i f (hplan ▸ hf)
    · rw [hplan] at hf
      cases hf

/-- A segment is sent. -/
theorem Ready.passes (hn : n.Ready o) (h : n.Passes i len n') : n'.Ready o := by
  refine ⟨h.options.trans hn.options, fun m => ?_, fun m => ?_⟩
  · have hfits := h.fits m
    rw [hn.options] at hfits
    exact hfits (hn.fits m)
  · by_cases hm : m = i
    · rw [hm, h.plan]
      exact planAfter_pos (hn.plan i) len
    · rw [h.others m hm]
      exact hn.plan m

/-- Sizes of zero are left out of a plan. -/
theorem Ready.split (hn : n.Ready o) (id : Handle) (sizes : List Nat) : (n.split id sizes).1.Ready o := by
  unfold Net.split updateOwned
  split
  · rename_i m _
    refine ⟨hn.options, fun i => ?_, fun i => ?_⟩
    · exact pcb_update_elim (hn.fits i) fun _ => (hn.fits i).congr rfl rfl rfl
    · refine pcb_update_elim (P := fun p => ∀ f ∈ p.splitPlan, 0 < f) (hn.plan i) fun _ f hf => ?_
      rcases List.mem_append.1 hf with hf | hf
      · exact hn.plan i f hf
      · exact of_decide_eq_true (List.mem_filter.1 hf).2
  · exact hn

/-- **Whatever happens to a net**, it is ready to send. -/
theorem undergo_ready {x : Happening} (hn : n.Ready o) (h : n.undergo x = .ok n') : n'.Ready o := by
  cases x with
  | add =>
    cases h
    exact hn.follows (steady_add Pcb.fits_default rfl).follows
  | perform i op =>
    obtain ⟨res, hr, rfl⟩ := undergo_perform.1 h
    exact hn.follows (perform_follows hr)
  | step =>
    unfold undergo at h
    cases hr : n.next with
    | none =>
      rw [hr] at h
      cases h
      exact hn
    | some r =>
      rw [hr] at h
      cases h
      rcases step_cases hr (hn.options ▸ hn.fits) with ⟨-, -, hf⟩ | ⟨i, j, len, -, -, hp, -⟩
      · exact hn.follows hf
      · exact hn.passes hp
  | tick =>
    cases h
    exact hn.follows (steady_tick n).follows
  | split id sizes =>
    cases h
    exact hn.split id sizes
  | failCloses id count =>
    cases h
    exact hn.follows (failCloses_steady n id count).follows

/-- **When there is no step**, nothing is pending, and only a full window holds data back. -/
theorem standstill (hn : n.Ready o) (ho : o.invalid? = none) (h : n.next = none) : n.Standstill := by
  have hactions : n.actions = [] := by
    unfold next at h
    split at h
    · cases h
    · assumption
  have htransmit : ∀ i j, (n.pcb i).peer = some j → n.transmit i = none := fun i j hp =>
    (next_eq_none h (lt_size_of_peer hp)).2
  refine ⟨hactions, fun i j hp hs hu hq => ?_, fun i j hp hs hu => ?_⟩
  · have hi := htransmit i j hp
    unfold transmit at hi
    rw [hp] at hi
    dsimp only at hi
    rw [if_neg hs, (hn.fits i).stored.isEmpty_iff.2 hu, hq] at hi
    cases hf : (n.pcb i).finSent with
    | true => rfl
    | false =>
      rw [hf] at hi
      cases hi
  · exact full_of_transmit hp hs (hn.fits i).stored (hn.plan i) (hn.options ▸ (Options.positive ho).1) hu (htransmit i j hp)

end Net

end Loopback

end Conduit
