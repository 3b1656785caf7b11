import Conduit.Proofs.Stack.Lowered
import Conduit.Proofs.Tls.Obliging

/-!
# Piles are transparent

-/

namespace Conduit

variable {H : Host}

/-! ## What is seen of an application -/

/-- What is seen of an application and of the endpoints of its own TCP engine. -/
inductive Seen (P : Type)
  /-- An endpoint was asked. -/
  | pcb (p : P) (o : PcbOp)
  /-- A callback was called. -/
  | called (call : Call)
  /-- An operation was answered. -/
  | replied (x : Handle) (o : Op) (r : o.Reply)

/-- The types of an application that is observed. -/
abbrev Host.observer (H : Host) : Host := { H with Memory := H.Memory × List (Seen H.Pcb) }

namespace Stack

variable {α : Type}

/-- Something is seen. -/
def see (s : Seen H.Pcb) : Act H.observer Unit :=
  .ask .recall fun m => .ask (.remember (m.1, m.2 ++ [s])) .done

/-- A request, and what is seen of it; `ρ` is what handles are called. What the application remembers does not touch what
was seen. -/
def seeing (ρ : Handle → Handle) : (r : Req H.observer) → Act H.observer r.Ans
  | .ask x o => .ask (.ask x o) fun r => see (.replied (ρ x) o r) >>= fun _ => .done r
  | .remember m => .ask .recall fun old => .ask (.remember (m.1, old.2)) .done
  | r => .ask r .done

/-- What an application does, when it is observed. -/
def observed (ρ : Handle → Handle) (p : Act H.observer α) : Act H.observer α := p.run (seeing ρ)

end Stack

/-- An application that is observed. -/
def Behaviour.observed (ρ : Handle → Handle) (b : Behaviour H.observer) : Behaviour H.observer :=
  { b with
    callback := fun code call => Stack.see (.called (call.rename ρ)) >>= fun _ => Stack.observed ρ (b.callback code call)
    pcb := fun p o m => ((b.pcb p o m).1, ((b.pcb p o m).2.1, m.2 ++ [.pcb p o]))
    note := fun _ m => m }

namespace Stack

open Exec Slots

section

variable {K : H.observer.Code → H.observer.Code → Prop} {t : Handle} {hs : List Handle} {b : Behaviour H.observer}

/-- The connection that is meant by `x`: the uppermost of a pile stands for the lowest. -/
def intend (t : Handle) (hs : List Handle) (x : Handle) : Handle := if x = hs.headD t then t else x

@[simp] theorem intend_raise (t : Handle) (x : Handle) : intend t hs (raise t hs x) = intend t hs x := by
  have hlow : intend t hs t = t := by
    unfold intend
    split <;> rfl
  by_cases hxt : x = t
  · rw [hxt, raise_self, hlow]
    exact if_pos rfl
  · rw [raise_of_ne hxt]

theorem rename_intend (call : Call) :
    (call.rename (raise t hs)).rename (intend t hs) = call.rename (intend t hs) := by
  cases call <;> simp only [Call.rename, intend_raise]

theorem observed_ask (ρ : Handle → Handle) (x : Handle) (o : Op) (next : o.Reply → Act H.observer α) :
    observed ρ (.ask (.ask x o) next) =
      .ask (.ask x o) fun r => see (.replied (ρ x) o r) >>= fun _ => observed ρ (next r) := rfl

theorem logless_observed (b : Behaviour H.observer) (ρ : Handle → Handle) : (b.observed ρ).Logless := fun _ _ => rfl

section

variable {outside : Bool} {α β : Type} {R : α → β → Prop} {p : Act H.observer α} {p' : Act H.observer β}

/-- Something is seen of both. -/
theorem Kin.see (s : Seen H.Pcb) (h : Kin K t hs outside R p p') :
    Kin K t hs outside R (Stack.see s >>= fun _ => p) (Stack.see s >>= fun _ => p') :=
  .recall fun _ => .remember h

/-- Programs that are kin are so when they are observed. -/
theorem Kin.observed (h : Kin K t hs outside R p p') :
    Kin K t hs outside R (Stack.observed (intend t hs) p) (Stack.observed (intend t hs) p') := by
  induction h with
  | done h => exact .done h
  | ask hx ho hd _ ih =>
    rw [observed_ask, observed_ask, intend_raise]
    exact .ask hx ho hd fun r => (ih r).see _
  | inject houtside he _ ih =>
    rw [observed_ask, observed_ask]
    exact .inject houtside he fun r => (ih r).see _
  | register hx hc _ ih => exact .register hx hc ih
  | clearCallbacks hx _ ih => exact .clearCallbacks hx ih
  | lookup hx _ ih => exact .lookup hx ih
  | «recall» _ ih => exact .recall ih
  | remember _ ih => exact .recall fun _ => .remember ih

end

/-- So are callbacks. -/
theorem Kindred.observed (h : Kindred K t hs b) : Kindred K t hs (b.observed (intend t hs)) := by
  intro c c' call hc hcall
  show Kin K t hs false _ (see (.called (call.rename (intend t hs))) >>= fun _ => _)
    (see (.called ((call.rename (raise t hs)).rename (intend t hs))) >>= fun _ => _)
  rw [rename_intend]
  exact ((h c c' call hc hcall).observed).see _

end

/-! ## A pile is put up -/

/-- Puts connections that hand on, with these names, one above the other on `t`; the answer is which they are, the
uppermost first. -/
def pileUp (t : Handle) : List String → Act H (Except Fault (List Handle))
  | [] => .done (.ok [])
  | name :: names => pileUp t names >>= fun
    | .error f => .done (.error f)
    | .ok hs => .ask (.wrap (hs.headD t) (.passthrough name)) fun
      | .error f => .done (.error f)
      | .ok z => .done (.ok (z :: hs))

section

variable {K : H.Code → H.Code → Prop} {t z : Handle} {hs : List Handle} {b : Behaviour H} {w w' : World H} {s s' : Slots H}
  {e : Entry H} {k : Nat} {l : Plain H.Pcb} {name : String}

/-- The pile `hs` has been put on the connection `t`, which was as `e` says. -/
structure Piled (t : Handle) (e : Entry H) (hs : List Handle) (w w' : World H) : Prop where
  same : Same w w'
  counted : w'.stack.Counted
  depth : w'.stack.depth = w.stack.depth
  pumping : w'.stack.pumping = w.stack.pumping
  queue : w'.stack.queue = w.stack.queue
  nodup : (hs ++ [t]).Nodup
  pile : w'.stack.Pile t none hs
  base : ∃ o, o ≠ some t ∧ w'.stack.find? t = some { e with outer := o }
  top : ∃ layer name inner, w'.stack.find? (hs.headD t) = some { layer, name, inner }
  other : ∀ x, x ≠ t → x ∉ hs → w'.stack.find? x = w.stack.find? x
  fresh : ∀ z ∈ hs, w.stack.find? z = none

/-- Another connection is put on a pile. -/
theorem Piled.wrap (hb : b.Logless) (h : Piled t e hs w w') (name : String) :
    ∃ z u, exec b (k + 1) (.wrap (hs.headD t) (.passthrough name)) w' = .ok (.ok z) u ∧ Piled t e (z :: hs) w u := by
  obtain ⟨layer, nm, inner, htop⟩ := h.top
  obtain ⟨o, ho, hbase⟩ := h.base
  obtain ⟨hlevel, hqueue⟩ := insert_frame w'.stack name (.passthrough name)
  have hcounted : (w'.stack.insert name (.passthrough name)).Counted := h.counted.insert
  have hz := find?_nextHandle h.counted
  have hinsert : ∀ x, (w'.stack.insert name (.passthrough name)).find? x = _ := fun x => find?_insert h.counted
  have hlookup : lookup (hs.headD t) w' = .ok (some { layer, name := nm, inner }) w' :=
    congrArg (EStateM.Result.ok · w') htop
  have hrun : exec b (k + 1) (.wrap (hs.headD t) (.passthrough name)) w' = .ok (.ok w'.stack.nextHandle)
      { w' with stack := (w'.stack.insert name (.passthrough name)).link (hs.headD t) w'.stack.nextHandle } := by
    show Stack.wrap b (hs.headD t) (.passthrough name) w' = _
    unfold Stack.wrap Stack.insert
    rw [bind_ok hlookup]
    simp only [note_eq hb]
    rfl
  generalize w'.stack.nextHandle = z at hz hinsert hrun
  have halive : ∀ x ∈ hs ++ [t], x ≠ z := by
    rintro x hx rfl
    rcases List.mem_append.1 hx with hx | hx
    · obtain ⟨e, he⟩ := h.pile.alive hx
      rw [he] at hz
      cases hz
    · rw [List.mem_singleton.1 hx, hbase] at hz
      cases hz
  have htz : t ≠ z := halive t (by simp)
  have hiz : hs.headD t ≠ z := fun hc => by rw [hc, hz] at htop; cases htop
  have hfind : ∀ x, ((w'.stack.insert name (.passthrough name)).link (hs.headD t) z).find? x =
      if x = hs.headD t then some { layer, name := nm, inner, outer := some z }
      else if x = z then some { layer := some (.passthrough name), name, inner := some (hs.headD t) }
      else w'.stack.find? x := by
    intro x
    unfold Slots.link
    rw [find?_update, find?_update, if_neg hiz, hinsert, if_neg hiz, htop, find?_update, hinsert, if_pos rfl]
    by_cases hx : x = z
    · rw [if_pos hx, if_pos hx]
      rfl
    · rw [if_neg hx, if_neg hx, hinsert, if_neg hx]
      rfl
  refine ⟨z, _, hrun, h.same.trans ⟨rfl, rfl, rfl⟩, hcounted.update.update, hlevel.depth.trans h.depth,
    hlevel.pumping.trans h.pumping, hqueue.trans h.queue, List.nodup_cons.2 ⟨fun hc => halive z hc rfl, h.nodup⟩,
    ⟨⟨{ layer := some (.passthrough name), name, inner := some (hs.headD t) }, name, ?_, rfl, rfl, rfl⟩, ?_⟩, ?_,
    ⟨some (.passthrough name), name, some (hs.headD t), ?_⟩, fun x hx hx' => ?_, fun x hx => ?_⟩
  · exact (hfind z).trans ((if_neg (Ne.symm hiz)).trans (if_pos rfl))
  · refine h.pile.crowned h.nodup htop fun x hx => (hfind x).trans ?_
    rw [if_neg (halive x hx)]
  · by_cases hi : t = hs.headD t
    · refine ⟨some z, fun hc => htz (Option.some.inj hc).symm, (hfind t).trans ((if_pos hi).trans ?_)⟩
      rw [← hi, hbase] at htop
      obtain ⟨_, _, _, _, _, _, _⟩ := e
      cases htop
      rfl
    · exact ⟨o, ho, (hfind t).trans ((if_neg hi).trans ((if_neg htz).trans hbase))⟩
  · exact (hfind z).trans ((if_neg (Ne.symm hiz)).trans (if_pos rfl))
  · rw [List.mem_cons, not_or] at hx'
    have hi : x ≠ hs.headD t := by
      rintro rfl
      cases hs with
      | nil => exact hx rfl
      | cons y ys => exact hx'.2 List.mem_cons_self
    exact (hfind x).trans ((if_neg hi).trans ((if_neg hx'.1).trans (h.other x hx hx'.2)))
  · rcases List.mem_cons.1 hx with rfl | hx
    · rw [← h.other x htz.symm fun hc => halive x (List.mem_append_left _ hc) rfl]
      exact hz
    · exact h.fresh x hx

/-- A pile is put up. -/
theorem pileUp_runs (hb : b.Logless) (k : Nat) (hc : w.stack.Counted)
    (ht : w.stack.find? t = some { layer := some (.plain l), name }) (names : List String) :
    ∃ hs w', run b (k + 1) (pileUp t names) w = .ok (.ok hs) w' ∧ hs.length = names.length ∧
      Piled t { layer := some (.plain l), name } hs w w' := by
  induction names with
  | nil =>
    refine ⟨[], w, rfl, rfl, .refl w, hc, rfl, rfl, rfl, List.nodup_singleton t, ?_, ⟨none, nofun, ht⟩, ⟨_, _, _, ht⟩,
      fun _ _ _ => rfl, nofun⟩
    show (w.stack.find? t).bind (·.outer) = none
    rw [ht]
    rfl
  | cons name' names ih =>
    obtain ⟨hs, w', hrun, hlen, hpiled⟩ := ih
    obtain ⟨z, u, hwrap, hpiled'⟩ := hpiled.wrap (k := k) hb name'
    refine ⟨z :: hs, u, ?_, congrArg (· + 1) hlen, hpiled'⟩
    unfold run pileUp
    rw [Program.run_bind]
    refine (bind_ok hrun _).trans ?_
    exact (bind_ok hwrap _).trans rfl

/-- The connection `t` is new, over an endpoint, and the others stand alone over theirs; nothing is under way. -/
structure Lone (K : H.Code → H.Code → Prop) (t : Handle) (w : World H) : Prop where
  counted : w.stack.Counted
  depth : w.stack.depth = 0
  pumping : w.stack.pumping = false
  queue : w.stack.queue = []
  fresh : ∃ l name, Plain.Drained l ∧ w.stack.find? t = some { layer := some (.plain l), name }
  peers : ∀ x e, x ≠ t → w.stack.find? x = some e → Peer K e e

/-- To an application, nothing has happened when a pile was put up. -/
theorem Piled.ready (hw : Lone K t w) (hd : l.Drained) (ht : w.stack.find? t = some { layer := some (.plain l), name })
    (h : Piled t { layer := some (.plain l), name } hs w w') : Ready K t hs false none hs.length w w' := by
  obtain ⟨o, ho, hbase⟩ := h.base
  obtain ⟨layer, nm, inner, htop⟩ := h.top
  have hnew : ∀ {layer layer' : Option (Layer H)} {name name' : String} {inner : Option Handle},
      Known K { layer, name } { layer := layer', name := name', inner } :=
    ⟨fun kind => by cases kind <;> exact .none, rfl, rfl⟩
  refine ⟨⟨h.same, hw.depth, h.depth.trans hw.depth, h.pumping, fun x hx hx' => ?_, .inl ⟨⟨l, _, { layer := some (.plain l), name, outer := o }, _,
    ⟨ht, rfl, rfl, nofun⟩, rfl, ⟨hbase, rfl, rfl, ho⟩, hd, rfl, h.pile, htop, hnew⟩, Nat.le_refl _, ?_⟩⟩, hw.pumping,
    fun _ => ⟨rfl, hw.queue, h.queue.trans hw.queue⟩⟩
  · rw [h.other x hx hx']
    cases he : w.stack.find? x with
    | none => exact .none
    | some e => exact .some (hw.peers x e hx he)
  · rw [h.queue, hw.queue]
    exact .nil

end

/-! ## An application that echoes -/

/-- Applications over an engine of their own. -/
@[reducible] def echo : Host where
  Memory := Unit
  Code := Unit
  Layer := Empty
  Pcb := Unit
  Engine := Empty
  Shared := Unit
  Source := Empty

/-- The callback writes back what it gets. -/
def echoing : Behaviour echo.observer where
  callback _
    | .recv me (some data) =>
      .ask (.ask me (.recved data.length)) fun _ => .ask (.ask me (.write data .copy)) fun _ => .done ((), .ok ())
    | _ => .done ((), .ok ())
  layer l := nomatch l
  layerName l := nomatch l
  pcb _ o m := (Tls.Toy.obligingPcb o, m)
  note _ m := m
  engine := meddling.engine
  newEngine := meddling.newEngine

theorem echoing_kindred (t : Handle) (hs : List Handle) : Kindred (· = ·) t hs echoing := by
  rintro c c' call rfl hcall
  cases call with
  | recv me data =>
    cases data with
    | none => exact .done ⟨rfl, rfl, nofun⟩
    | some data =>
      have hme : me ∉ hs := of_decide_eq_false hcall
      exact .ask hme nofun nofun fun _ => .ask hme nofun nofun fun _ => .done ⟨rfl, rfl, fun _ => rfl⟩
  | _ => exact .done ⟨rfl, rfl, fun _ => rfl⟩

/-- A connection has been opened over an endpoint. -/
def opened : World echo.observer where
  stack := { slots := #[{ entry := some { layer := some (.plain (.ofPcb (.external ()))), name := "tcp" } }], live := 1 }
  shared := ()
  memory := ((), [])

theorem opened_lone : Lone (· = ·) ⟨0, 0⟩ opened := by
  refine ⟨⟨rfl, List.nodup_nil, fun i => ?_⟩, rfl, rfl, rfl, ⟨.ofPcb (.external ()), "tcp", ⟨rfl, rfl, nofun⟩, rfl⟩, ?_⟩
  · cases i with
    | zero => decide
    | succ i => exact ⟨nofun, nofun⟩
  · intro x e hx he
    have hempty : opened.stack.find? x = none := by
      obtain ⟨i, g⟩ := x
      cases i with
      | zero =>
        cases g with
        | zero => exact absurd rfl hx
        | succ g => rfl
      | succ i => rfl
    rw [hempty] at he
    cases he

/-- Data arrives at the foot, and the connection that the application uses is closed. -/
def exchange (me : Handle) : Act echo.observer Outcome :=
  .ask (.register me .recv ()) fun _ =>
  .ask (.ask ⟨0, 0⟩ (.lower (.recv [1, 2]))) fun _ =>
  .ask (.ask me .close) .done

/-! ## Transparency -/

/-- **A pile is transparent.** When connections that hand on are put up on a connection over an endpoint, an application
that uses the uppermost of them sees what it sees when it uses the one at their foot: the same answers, the same calls of its
callbacks, but for the handle; the endpoint is asked the same, and the connections that the application uses live as long. -/
theorem transparent {b : Behaviour H.observer} {w : World H.observer} {t : Handle}
    {K : H.observer.Code → H.observer.Code → Prop} (hw : Lone K t w) (name : String) (names : List String) :
    ∃ hs w', run (b.observed id) 1 (pileUp t (name :: names)) w = .ok (.ok hs) w' ∧ hs.length = names.length + 1 ∧
      ∀ {α β : Type} {R : α → β → Prop} {p : Act H.observer α} {p' : Act H.observer β} {k k' : Nat}, Kindred K t hs b →
        Kin K t hs true R p p' → k + 2 * hs.length + 2 ≤ k' →
        Follows (run (b.observed (intend t hs)) k (observed (intend t hs) p))
          (run (b.observed (intend t hs)) k' (observed (intend t hs) p')) w w' fun a u c v =>
            R a c ∧ v.memory = u.memory ∧ v.net = u.net ∧
              ∀ x ∉ hs, v.stack.isAlive (raise t hs x) = u.stack.isAlive x := by
  obtain ⟨l, n, hd, ht⟩ := hw.fresh
  obtain ⟨hs, w', hrun, hlen, hpiled⟩ := pileUp_runs (logless_observed b id) 0 hw.counted ht (name :: names)
  refine ⟨hs, w', hrun, hlen, fun {α β R p p' k k'} hkin happ hk => ?_⟩
  have hne : hs ≠ [] := fun hc => by rw [hc] at hlen; cases hlen
  have hpos : 0 < hs.length := List.length_pos_iff.2 hne
  obtain ⟨k', rfl⟩ : ∃ d, k' = d + 2 := ⟨k' - 2, by omega⟩
  refine ((hpiled.ready hw hd ht).runs (logless_observed b _) hpiled.nodup hne (by omega) hkin.observed happ.observed
    (by omega)).mono ?_
  rintro a u c v ⟨hr, huv⟩
  exact ⟨hr, huv.same.memory, huv.same.net, fun x hx => huv.isAlive hne hx⟩

theorem transparent_echo : ∃ (hs : List Handle) (w' u v : World echo.observer),
    run (echoing.observed id) 1 (pileUp ⟨0, 0⟩ ["upper", "lower"]) opened = .ok (.ok hs) w' ∧
    run (echoing.observed (intend ⟨0, 0⟩ hs)) 10 (observed (intend ⟨0, 0⟩ hs) (exchange ⟨0, 0⟩)) opened = .ok (.ok ()) u ∧
    run (echoing.observed (intend ⟨0, 0⟩ hs)) 16 (observed (intend ⟨0, 0⟩ hs) (exchange (hs.headD ⟨0, 0⟩))) w' =
      .ok (.ok ()) v ∧ v.memory = u.memory ∧ v.memory.2.length = 9 ∧ v.stack.isAlive (hs.headD ⟨0, 0⟩) = false := by
  have hpiles : Exec.reaches (run (echoing.observed id) 1 (pileUp ⟨0, 0⟩ ["upper", "lower"])) opened
      (fun r _ => r = .ok [⟨2, 0⟩, ⟨1, 0⟩]) = true := by decide +kernel
  have hruns : Exec.reaches (run (echoing.observed (intend ⟨0, 0⟩ [⟨2, 0⟩, ⟨1, 0⟩])) 10
      (observed (intend ⟨0, 0⟩ [⟨2, 0⟩, ⟨1, 0⟩]) (exchange ⟨0, 0⟩))) opened
      (fun r u => r = .ok () && u.memory.2.length = 9 && !u.stack.isAlive ⟨0, 0⟩) = true := by decide +kernel
  obtain ⟨r, w₁, hpiled, hr⟩ := exists_of_reaches hpiles
  obtain ⟨r', u, hrun, hends⟩ := exists_of_reaches hruns
  simp only [Bool.and_eq_true, decide_eq_true_eq, Bool.not_eq_true'] at hr hends
  obtain ⟨⟨rfl, hlen⟩, hdead⟩ := hends
  subst hr
  obtain ⟨hs, w', hpiled', -, hsame⟩ := transparent (b := echoing) opened_lone "upper" ["lower"]
  obtain ⟨hhs, rfl⟩ := EStateM.Result.ok.inj (hpiled.symm.trans hpiled')
  obtain rfl := Except.ok.inj hhs
  have hkin : Kin (· = ·) ⟨0, 0⟩ [⟨2, 0⟩, ⟨1, 0⟩] true (· = ·) (exchange ⟨0, 0⟩)
      (exchange ([⟨2, 0⟩, ⟨1, 0⟩].headD ⟨0, 0⟩)) :=
    .register (x := ⟨0, 0⟩) (by decide) rfl fun _ => .inject rfl nofun fun _ =>
      .ask (x := ⟨0, 0⟩) (by decide) nofun nofun fun _ => .done rfl
  obtain ⟨_, v, hstacked, rfl, hmem, -, halive⟩ :=
    (hsame (echoing_kindred _ _) hkin (show 10 + 2 * ([⟨2, 0⟩, ⟨1, 0⟩] : List Handle).length + 2 ≤ 16 by decide)).ok hrun
  have hlen' : v.memory.2.length = 9 := (congrArg (fun m => m.2.length) hmem).trans hlen
  exact ⟨[⟨2, 0⟩, ⟨1, 0⟩], w₁, u, v, hpiled, hrun, hstacked, hmem, hlen', (halive ⟨0, 0⟩ (by decide)).trans hdead⟩

end Stack

end Conduit
