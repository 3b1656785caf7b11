import Conduit.Proofs.Stack.Piles
import Conduit.Proofs.Stack.Stale

/-!
# An application above a pile

-/

namespace Conduit

variable {H : Host}

namespace Stack

open Exec Slots

/-! ## Two worlds -/

section

variable (K : H.Code → H.Code → Prop) (t : Handle) (hs : List Handle)

/-- The connection that the application uses for `x` when the pile `hs` stands on `t`. -/
def raise (x : Handle) : Handle := if x = t then hs.headD t else x

/-- What the application knows of a connection, and of that which it uses for it. -/
structure Known (e e' : Entry H) : Prop where
  callbacks : ∀ kind, Option.Rel K (e.callbacks.get kind) (e'.callbacks.get kind)
  epoch : e'.epoch = e.epoch
  pollInterval : e'.pollInterval = e.pollInterval

/-- A plain connection that stands alone, in one world as in the other. -/
structure Peer (e e' : Entry H) : Prop where
  layer : ∃ l, e.layer = some (.plain l) ∧ e'.layer = some (.plain l)
  inner : e.inner = none ∧ e'.inner = none
  outer : e.outer = none ∧ e'.outer = none
  known : Known K e e'

/-- The connection `t` stands alone in `s`, and has handed up all it got but for `f`; in `s'` the pile `hs` stands on it. -/
structure Standing (f : Option Segments) (s s' : Slots H) (l : Plain H.Pcb) (e e' top : Entry H) : Prop where
  own : Ground s t (l.loaded f) e
  outer : e.outer = none
  base : Ground s' t l e'
  drained : l.Drained
  pollInterval : e'.pollInterval = e.pollInterval
  pile : s'.Pile t none hs
  uppermost : s'.find? (hs.headD t) = some top
  known : Known K e top

/-- The last events of connections that wait in two worlds: in the second there are up to `n` more, which are for
connections of the pile. -/
inductive Backlog : Nat → List (Queued H) → List (Queued H) → Prop
  | nil {n : Nat} : Backlog n [] []
  | litter {n : Nat} {q : Queued H} {qs qs' : List (Queued H)} (h : Litter hs q) (hqs : Backlog n qs qs') :
    Backlog (n + 1) qs (q :: qs')
  | sink {n : Nat} {x x' : Handle} {r : Fault} {c c' : Option H.Code} {qs qs' : List (Queued H)} (h : Option.Rel K c c')
    (hqs : Backlog n qs qs') : Backlog n (⟨x, .error r, .sink c⟩ :: qs) (⟨x', .error r, .sink c'⟩ :: qs')

/-- Two worlds that are the same to an application, though in the second the pile `hs` stands on the connection `t`: all
of them are there, or all are gone. -/
structure Raised (f : Option Segments) (n : Nat) (w w' : World H) : Prop where
  same : Same w w'
  depth : w.stack.depth = 0
  depth' : w'.stack.depth = 0
  pumping : w'.stack.pumping = w.stack.pumping
  other : ∀ x, x ≠ t → x ∉ hs → Option.Rel (Peer K) (w.stack.find? x) (w'.stack.find? x)
  own : (∃ l e e' top, Standing K t hs f w.stack w'.stack l e e' top) ∧ hs.length ≤ n ∧
      Backlog K hs 0 w.stack.queue w'.stack.queue ∨
    (w.stack.find? t = none ∧ ∀ z ∈ hs ++ [t], w'.stack.find? z = none) ∧
      Backlog K hs n w.stack.queue w'.stack.queue

end

variable {K : H.Code → H.Code → Prop} {t : Handle} {hs : List Handle} {b : Behaviour H} {w w' u v : World H}
  {f : Option Segments} {n m : Nat} {x : Handle} {o : Op} {e e' : Entry H}

theorem Backlog.mono {qs qs' : List (Queued H)} (h : Backlog K hs n qs qs') (hm : n ≤ m) : Backlog K hs m qs qs' := by
  induction h generalizing m with
  | nil => exact .nil
  | litter hl _ ih =>
    obtain ⟨m, rfl⟩ : ∃ j, m = j + 1 := ⟨m - 1, by omega⟩
    exact .litter hl (ih (Nat.le_of_succ_le_succ hm))
  | sink hc _ ih => exact .sink hc (ih hm)

theorem Backlog.append {qs qs' ps ps' : List (Queued H)} (h : Backlog K hs n qs qs') (hp : Backlog K hs m ps ps') :
    Backlog K hs (n + m) (qs ++ ps) (qs' ++ ps') := by
  induction h with
  | nil => exact hp.mono (Nat.le_add_left _ _)
  | litter hl _ ih =>
    rw [Nat.add_right_comm]
    exact .litter hl ih
  | sink hc _ ih => exact .sink hc ih

theorem Backlog.of_litter {qs : List (Queued H)} (h : ∀ q ∈ qs, Litter hs q) : Backlog K hs qs.length [] qs := by
  induction qs with
  | nil => exact .nil
  | cons q qs ih => exact .litter (h q List.mem_cons_self) (ih fun p hp => h p (List.mem_cons_of_mem _ hp))

theorem raise_self : raise t hs t = hs.headD t := if_pos rfl

theorem raise_of_ne (hx : x ≠ t) : raise t hs x = x := if_neg hx

/-- An operation is kept of both. -/
theorem Known.tune (h : Known K e e') (o : Op) (layer layer' : Option (Layer H)) :
    Known K { o.tune e with layer := layer } { o.tune e' with layer := layer' } := by
  cases o with
  | setPoll n => exact ⟨h.callbacks, h.epoch, rfl⟩
  | _ => exact ⟨h.callbacks, h.epoch, h.pollInterval⟩

theorem tune_links (o : Op) (e : Entry H) : (o.tune e).layer = e.layer ∧ (o.tune e).inner = e.inner ∧
    (o.tune e).outer = e.outer := by
  cases o <;> exact ⟨rfl, rfl, rfl⟩

/-! ## Operations -/

section

variable {l : Plain H.Pcb} {top : Entry H} {r : o.Reply} {r' : o.Reply}

theorem not_mem_of_nodup (hn : (hs ++ [t]).Nodup) : t ∉ hs :=
  fun hc => (List.nodup_append.1 hn).2.2 t hc t (List.mem_singleton.2 rfl) rfl

theorem headD_mem (hne : hs ≠ []) : hs.headD t ∈ hs := by
  cases hs with
  | nil => exact absurd rfl hne
  | cons z hs => exact List.mem_cons_self

/-- A pile is what it was as long as its layers and links are. -/
theorem pile_relinked {s s' : Slots H} {zs : List Handle} {up : Option Handle} (h : s.Pile t up zs)
    (hf : ∀ y ∈ zs, ∀ e, s.find? y = some e → ∃ e', s'.find? y = some e' ∧ e'.layer = e.layer ∧ e'.inner = e.inner ∧
      e'.outer = e.outer) (ht : s'.outer? t = s.outer? t) : s'.Pile t up zs := by
  induction zs generalizing up with
  | nil => exact ht.trans h
  | cons z zs ih =>
    obtain ⟨⟨e, name, he, hl, hi, hout⟩, hbelow⟩ := h
    obtain ⟨e', he', hl', hi', hout'⟩ := hf z List.mem_cons_self e he
    exact ⟨⟨e', name, he', hl'.trans hl, hi'.trans hi, hout'.trans hout⟩,
      ih hbelow fun y hy => hf y (List.mem_cons_of_mem _ hy)⟩

/-- The pile has been asked, and is still there. -/
theorem Standing.kept {l₁ : Plain H.Pcb} {s s' u v : Slots H} (h : Standing K t hs f s s' l e e' top)
    (hn : (hs ++ [t]).Nodup) (hne : hs ≠ []) (hl : l.Drained → l₁.Drained) (hu : Kept o.tune t [] (l₁.loaded f) s u)
    (hv : Kept o.tune t hs l₁ s' v) :
    ∃ e e' top, Standing K t hs f u v l₁ e e' top := by
  have htop := headD_mem (t := t) hne
  have ht := not_mem_of_nodup hn
  have htop' : hs.headD t ≠ t := fun hc => ht (hc ▸ htop)
  refine ⟨{ o.tune e with layer := some (.plain (l₁.loaded f)) }, { o.tune e' with layer := some (.plain l₁) }, o.tune top,
    ⟨?_, rfl, (tune_links o e).2.1.trans h.own.inner, ?_⟩, (tune_links o e).2.2.trans h.outer,
    ⟨?_, rfl, (tune_links o e').2.1.trans h.base.inner, ?_⟩, hl h.drained, ?_, ?_, ?_, ?_⟩
  · rw [hu.find?, if_pos rfl, h.own.find?]
    rfl
  · rw [(tune_links o e).2.2]
    exact h.own.outer
  · rw [hv.find?, if_pos rfl, h.base.find?]
    rfl
  · rw [(tune_links o e').2.2]
    exact h.base.outer
  · have hp := h.pollInterval
    cases o <;> first | exact hp | rfl
  · refine pile_relinked h.pile (fun y hy e he => ⟨o.tune e, ?_, tune_links o e⟩) ?_
    · rw [hv.find?, if_neg (fun hc : y = t => ht (hc ▸ hy)), if_pos hy, he]
      rfl
    · show (v.find? t).bind (·.outer) = (s'.find? t).bind (·.outer)
      rw [hv.find?, if_pos rfl, h.base.find?]
      exact (tune_links o e').2.2
  · rw [hv.find?, if_neg htop', if_pos htop, h.uppermost]
    rfl
  · exact h.known.tune o _ _

theorem farewell_of_outer (h : e.outer = none) : e.farewell = .sink e.callbacks.err := by
  unfold Entry.farewell
  rw [h]

/-- Nothing stands on the uppermost. -/
theorem Standing.outer_top {s s' : Slots H} (h : Standing K t hs f s s' l e e' top) : top.outer = none := by
  have hout := h.pile.outer_head
  unfold outer? at hout
  rwa [h.uppermost] at hout

/-- The pile is gone, and its last events wait. -/
theorem Standing.backlog {s s' u v : Slots H} (h : Standing K t hs f s s' l e e' top) (hu : Gone o t [] s u)
    (hv : Gone o t hs s' v) (hq : Backlog K hs 0 s.queue s'.queue) : Backlog K hs hs.length u.queue v.queue := by
  obtain ⟨qs, hqs, hpart⟩ := hu.queue
  obtain ⟨qs', hqs', hpart'⟩ := hv.queue
  rw [hqs, hqs']
  refine (hq.append (m := hs.length) ?_).mono (Nat.le_of_eq (Nat.zero_add _))
  by_cases ho : o = .abort
  · rw [if_pos ho] at hpart hpart'
    obtain ⟨litter, e₁, he₁, hnil, -, rfl⟩ := hpart
    obtain ⟨litter', e₂, he₂, hlen, hlitter, rfl⟩ := hpart'
    obtain rfl := List.length_eq_zero_iff.1 hnil
    obtain rfl : e = e₁ := Option.some.inj (h.own.find?.symm.trans he₁)
    obtain rfl : top = e₂ := Option.some.inj (h.uppermost.symm.trans he₂)
    rw [farewell_of_outer h.outer, farewell_of_outer h.outer_top]
    exact ((Backlog.of_litter hlitter).append (.sink (n := 0) (h.known.callbacks .err) .nil)).mono (Nat.le_of_eq hlen)
  · rw [if_neg ho] at hpart hpart'
    rw [hpart, hpart']
    exact .nil

/-- The connection is gone, and the pile with it. -/
theorem Raised.without (h : Raised K t hs f n w w') (hstands : Standing K t hs f w.stack w'.stack l e e' top)
    (hsame : Same u v) (hu : Without t [t] w.stack u.stack) (hv : Without (hs.headD t) (hs ++ [t]) w'.stack v.stack)
    (hq : Backlog K hs n u.stack.queue v.stack.queue) : Raised K t hs f n u v := by
  refine ⟨hsame, hu.depth.trans h.depth, hv.depth.trans h.depth', hv.pumping.trans (h.pumping.trans hu.pumping.symm),
    fun x hx hx' => ?_, .inr ⟨⟨?_, fun z hz => ?_⟩, hq⟩⟩
  · have hout : w.stack.outer? t = none := by
      unfold outer?
      rw [hstands.own.find?]
      exact hstands.outer
    have hmem : x ∉ hs ++ [t] := by simp [hx, hx']
    rw [hu.find?, if_neg (by simpa using hx), hv.find?, if_neg hmem, hstands.pile.outer_head, hout]
    exact h.other x hx hx'
  · rw [hu.find?, if_pos (by simp)]
  · rw [hv.find?, if_pos hz]

/-- **What is asked of the uppermost of a pile leaves two worlds the same** to an application. -/
theorem Raised.reached (h : Raised K t hs f n w w') (hstands : Standing K t hs f w.stack w'.stack l e e' top)
    (hlen : hs.length ≤ n) (hq : Backlog K hs 0 w.stack.queue w'.stack.queue) (hn : (hs ++ [t]).Nodup) (hne : hs ≠ [])
    (hr : Reached o t hs f l w w' r u r' v) : Raised K t hs f n u v ∧ u.stack.pumping = w.stack.pumping := by
  obtain ⟨-, hs', hlayers⟩ := hr
  split at hlayers
  · obtain ⟨hu, hv⟩ := hlayers
    exact ⟨h.without hstands hs' hu.without hv.without ((hstands.backlog hu hv hq).mono hlen), hu.without.pumping⟩
  · obtain ⟨l₁, hdrained, hu, hv⟩ := hlayers
    refine ⟨⟨hs', hu.depth.trans h.depth, hv.depth.trans h.depth', hv.pumping.trans (h.pumping.trans hu.pumping.symm),
      fun x hx hx' => ?_, .inl ⟨⟨l₁, hstands.kept hn hne hdrained hu hv⟩, hlen, ?_⟩⟩, hu.pumping⟩
    · rw [hu.find?, if_neg hx, if_neg List.not_mem_nil, hv.find?, if_neg hx, if_neg hx']
      exact h.other x hx hx'
    · rw [hu.queue, hv.queue]
      exact hq

/-- The pile depends on its own connections only. -/
theorem Standing.congr {s s' u v : Slots H} (h : Standing K t hs f s s' l e e' top) (hu : u.find? t = s.find? t)
    (hv : ∀ y ∈ hs ++ [t], v.find? y = s'.find? y) (hne : hs ≠ []) : Standing K t hs f u v l e e' top := by
  have ht : v.find? t = s'.find? t := hv t (by simp)
  refine ⟨⟨hu.trans h.own.find?, h.own.layer, h.own.inner, h.own.outer⟩, h.outer,
    ⟨ht.trans h.base.find?, h.base.layer, h.base.inner, h.base.outer⟩, h.drained, h.pollInterval,
    h.pile.congr (fun y hy => hv y (by simp [hy])) (congrArg (·.bind (·.outer)) ht), ?_, h.known⟩
  exact (hv _ (List.mem_append_left _ (headD_mem hne))).trans h.uppermost

/-- What becomes of other connections, and of the queue, does not touch the pile. -/
theorem Raised.others (h : Raised K t hs f n w w') (hne : hs ≠ []) (hs' : Same u v) (hd : u.stack.depth = w.stack.depth)
    (hd' : v.stack.depth = w'.stack.depth) (hp : u.stack.pumping = w.stack.pumping)
    (hp' : v.stack.pumping = w'.stack.pumping) (hu : u.stack.find? t = w.stack.find? t)
    (hv : ∀ y ∈ hs ++ [t], v.stack.find? y = w'.stack.find? y)
    (hother : ∀ x, x ≠ t → x ∉ hs → Option.Rel (Peer K) (u.stack.find? x) (v.stack.find? x))
    (hq : ∀ m, Backlog K hs m w.stack.queue w'.stack.queue → Backlog K hs m u.stack.queue v.stack.queue) :
    Raised K t hs f n u v := by
  refine ⟨hs', hd.trans h.depth, hd'.trans h.depth', hp'.trans (h.pumping.trans hp.symm), hother, ?_⟩
  rcases h.own with ⟨⟨l, e, e', top, hstands⟩, hlen, hback⟩ | ⟨⟨hgone, hgone'⟩, hback⟩
  · exact .inl ⟨⟨l, e, e', top, hstands.congr hu hv hne⟩, hlen, hq 0 hback⟩
  · exact .inr ⟨⟨hu.trans hgone, fun z hz => (hv z hz).trans (hgone' z hz)⟩, hq n hback⟩

/-- What is asked of another connection leaves two worlds the same to an application. -/
theorem Raised.reached_peer (h : Raised K t hs f n w w') (hne : hs ≠ []) (hx : x ≠ t) (hx' : x ∉ hs)
    (he : w.stack.find? x = some e) (he' : w'.stack.find? x = some e') (hpeer : Peer K e e')
    (hr : Reached o x [] none l w w' r u r' v) : Raised K t hs f n u v ∧ u.stack.pumping = w.stack.pumping := by
  obtain ⟨-, hs', hlayers⟩ := hr
  have hmem : ∀ y ∈ hs ++ [t], y ≠ x := by
    intro y hy hc
    rw [List.mem_append, List.mem_singleton, hc] at hy
    exact hy.elim hx' hx
  split at hlayers
  · obtain ⟨hu, hv⟩ := hlayers
    have hout : w.stack.outer? x = none := by
      unfold outer?
      rw [he]
      exact hpeer.outer.1
    have hout' : w'.stack.outer? x = none := by
      unfold outer?
      rw [he']
      exact hpeer.outer.2
    have hfind : ∀ y, u.stack.find? y = if y = x then none else w.stack.find? y := by
      intro y
      rw [hu.without.find?]
      show (if y ∈ [x] then none else if w.stack.outer? x = some y then _ else _) = _
      simp [hout]
    have hfind' : ∀ y, v.stack.find? y = if y = x then none else w'.stack.find? y := by
      intro y
      rw [hv.without.find?]
      show (if y ∈ [x] then none else if w'.stack.outer? x = some y then _ else _) = _
      simp [hout']
    refine ⟨h.others hne hs' hu.without.depth hv.without.depth hu.without.pumping hv.without.pumping ?_ (fun y hy => ?_)
      (fun y hy hy' => ?_) (fun m hm => ?_), hu.without.pumping⟩
    · rw [hfind, if_neg hx.symm]
    · rw [hfind', if_neg (hmem y hy)]
    · rw [hfind, hfind']
      split
      · exact .none
      · exact h.other y hy hy'
    · obtain ⟨qs, hqs, hpart⟩ := hu.queue
      obtain ⟨qs', hqs', hpart'⟩ := hv.queue
      rw [hqs, hqs']
      refine hm.append (m := 0) ?_
      by_cases ho : o = .abort
      · rw [if_pos ho] at hpart hpart'
        obtain ⟨litter, e₁, he₁, hnil, -, rfl⟩ := hpart
        obtain ⟨litter', e₂, he₂, hnil', -, rfl⟩ := hpart'
        obtain rfl := List.length_eq_zero_iff.1 hnil
        obtain rfl := List.length_eq_zero_iff.1 hnil'
        obtain rfl : e = e₁ := Option.some.inj (he.symm.trans he₁)
        obtain rfl : e' = e₂ := Option.some.inj (he'.symm.trans he₂)
        rw [farewell_of_outer hpeer.outer.1, farewell_of_outer hpeer.outer.2]
        exact .sink (hpeer.known.callbacks .err) .nil
      · rw [if_neg ho] at hpart hpart'
        rw [hpart, hpart']
        exact .nil
  · obtain ⟨l₁, -, hu, hv⟩ := hlayers
    refine ⟨h.others hne hs' hu.depth hv.depth hu.pumping hv.pumping ?_ (fun y hy => ?_) (fun y hy hy' => ?_)
      (fun m hm => by rw [hu.queue, hv.queue]; exact hm), hu.pumping⟩
    · rw [hu.find?, if_neg hx.symm, if_neg List.not_mem_nil]
    · rw [hv.find?, if_neg (hmem y hy), if_neg List.not_mem_nil]
    · rw [hu.find?, hv.find?]
      by_cases hyx : y = x
      · rw [if_pos hyx, if_pos hyx, hyx, he, he']
        refine .some ⟨⟨l₁, rfl, rfl⟩, ?_, ?_, hpeer.known.tune o _ _⟩
        · exact ⟨(tune_links o e).2.1.trans hpeer.inner.1, (tune_links o e').2.1.trans hpeer.inner.2⟩
        · exact ⟨(tune_links o e).2.2.trans hpeer.outer.1, (tune_links o e').2.2.trans hpeer.outer.2⟩
      · rw [if_neg hyx, if_neg hyx, if_neg List.not_mem_nil, if_neg List.not_mem_nil]
        exact h.other y hy hy'

/-- The application finds the same behind the handles it uses. -/
theorem Raised.known (h : Raised K t hs f n w w') (hne : hs ≠ []) (hx : x ∉ hs) :
    Option.Rel (Known K) (w.stack.find? x) (w'.stack.find? (raise t hs x)) := by
  by_cases hxt : x = t
  · subst hxt
    rw [raise_self]
    rcases h.own with ⟨⟨l, e, e', top, hstands⟩, -⟩ | ⟨⟨hgone, hgone'⟩, -⟩
    · rw [hstands.own.find?, hstands.uppermost]
      exact .some hstands.known
    · rw [hgone, hgone' _ (List.mem_append_left _ (headD_mem hne))]
      exact .none
  · rw [raise_of_ne hxt]
    have hrel := h.other x hxt hx
    generalize w.stack.find? x = e at hrel ⊢
    generalize w'.stack.find? x = e' at hrel ⊢
    cases hrel with
    | some hpeer => exact .some hpeer.known
    | none => exact .none

theorem Raised.isAlive (h : Raised K t hs f n w w') (hne : hs ≠ []) (hx : x ∉ hs) :
    w'.stack.isAlive (raise t hs x) = w.stack.isAlive x := by
  have hrel := h.known hne hx
  unfold Slots.isAlive
  generalize w.stack.find? x = e at hrel ⊢
  generalize w'.stack.find? (raise t hs x) = e' at hrel ⊢
  cases hrel <;> rfl

section

variable {A : Answers H} {k k' : Nat} (hb : b.Logless) (h : Raised K t hs f n w w') (hn : (hs ++ [t]).Nodup) (hne : hs ≠ [])
  (hx : x ∉ hs) (ho : ∀ e, o ≠ .lower e) (hd : o ≠ .shutdown .both) (hk : hs.length < k')
include hb h hn hne hx ho hd hk

/-- **An operation comes to the same**, apart from deliveries. -/
theorem Raised.attempt (ha : w.stack.isAlive x = true) :
    Follows (attempt b A (freeEntry b A k) x o)
      (attempt b (exec b k') (freeEntry b (exec b k') k') (raise t hs x) o) w w' fun r u r' v =>
        r' = r ∧ Raised K t hs f n u v ∧ u.stack.pumping = w.stack.pumping := by
  by_cases hxt : x = t
  · subst hxt
    rw [raise_self]
    rcases h.own with ⟨⟨l, e, e', top, hstands⟩, hlen, hq⟩ | ⟨⟨hgone, -⟩, -⟩
    · refine (attempt_pile hb h.same hstands.own hstands.base hstands.pollInterval (fun _ => hstands.drained) ho hd
        hstands.pile hn (fun _ _ hc => (nomatch hc)) hk).mono fun r u r' v hr => ?_
      exact ⟨hr.reply, h.reached hstands hlen hq hn hne hr⟩
    · rw [isAlive_eq_false.2 hgone] at ha
      cases ha
  · rw [raise_of_ne hxt]
    obtain ⟨e, he⟩ := isAlive_iff.1 ha
    have hrel := h.other x hxt hx
    rw [he] at hrel
    obtain ⟨e', he', hpeer⟩ : ∃ e', w'.stack.find? x = some e' ∧ Peer K e e' := by
      generalize w'.stack.find? x = e' at hrel
      cases hrel with
      | some hpeer => exact ⟨_, rfl, hpeer⟩
    obtain ⟨l, hl, hl'⟩ := hpeer.layer
    obtain ⟨k', rfl⟩ := Nat.exists_eq_succ_of_ne_zero (Nat.ne_of_gt (Nat.zero_lt_of_lt hk))
    have hout : e.outer ≠ some x ∧ e'.outer ≠ some x := by
      rw [hpeer.outer.1, hpeer.outer.2]
      exact ⟨fun hc => (nomatch hc), fun hc => (nomatch hc)⟩
    refine (attempt_plain (l := l) (f := none) hb h.same ⟨he, hl, hpeer.inner.1, hout.1⟩ ⟨he', hl', hpeer.inner.2, hout.2⟩
      hpeer.known.pollInterval (fun hc => absurd rfl hc) ho hd).mono fun r u r' v hr => ?_
    exact ⟨hr.reply, h.reached_peer hne hxt hx he he' hpeer hr⟩

end

end

/-- An operation on a connection that is not there is refused, unless there is no fuel. -/
theorem exec_gone (hb : b.Logless) (k : Nat) (o : Op) (hid : w.stack.find? x = none) (hq : w.stack.Quiet) :
    exec b (k + 2) (.ask x o) w = .ok (o.refused .invalidArgument) w ∧
      (exec b (k + 1) (.ask x o) w = .ok (o.refused .invalidArgument) w ∨
        ∃ u, exec b (k + 1) (.ask x o) w = .error .outOfFuel u) := by
  have habsent : ∀ k, exec b (k + 2) (.ask x o) w = .ok (o.refused .invalidArgument) w := by
    intro k
    obtain ⟨m, hm, (hrun : operate b (exec b (k + 1)) (freeEntry b (exec b (k + 1)) (k + 1)) (k + 1) x o w = _)⟩ :=
      operate_absent k o (isAlive_eq_false.2 hid) hq
    obtain rfl : m = w.memory := by
      rcases hm with hm | ⟨n, hm⟩
      · exact hm
      · exact hm.trans (hb n w.memory)
    exact hrun
  refine ⟨habsent k, ?_⟩
  cases k with
  | succ k => exact .inl (habsent k)
  | zero =>
    have hcall : ∀ o : Op, call b (exec b 0) (freeEntry b (exec b 0) 0) 0 x o w = .ok (o.refused .invalidArgument) w ∨
        ∃ u, call b (exec b 0) (freeEntry b (exec b 0) 0) 0 x o w = .error .outOfFuel u := by
      intro o
      have hlayer : withLayer b (exec b 0) (freeEntry b (exec b 0) 0) x (.op o) w = .ok (.error .invalidArgument) w := by
        unfold withLayer
        rw [bind_ok (u := w) (a := none) (by rw [← hid]; rfl)]
        rfl
      unfold call
      rw [bind_ok hlayer]
      cases hbusy : (0 < w.stack.depth || w.stack.pumping) with
      | true =>
        rw [bind_ok (pump_held hbusy)]
        exact .inl rfl
      | false =>
        have hqueue : w.stack.queue = [] := by
          rw [Bool.or_eq_false_iff, decide_eq_false_iff_not] at hbusy
          rcases hq with hd | hp | hqueue
          · exact absurd hd hbusy.1
          · exact absurd hp (by rw [hbusy.2]; exact Bool.false_ne_true)
          · exact hqueue
        have hpump : pump b (exec b 0) (freeEntry b (exec b 0) 0) 0 w = _ := pump_idle hbusy hqueue
        rw [if_pos rfl] at hpump
        exact .inr ⟨_, bind_error hpump _⟩
    show operate b (exec b 0) (freeEntry b (exec b 0) 0) 0 x o w = _ ∨ ∃ u, operate b _ _ 0 x o w = _
    have halive : w.stack.isAlive x = false := isAlive_eq_false.2 hid
    cases o with
    | abort =>
      refine .inl ((bind_ok (getSlots_eq w) _).trans ?_)
      rw [halive]
      rfl
    | setPoll n =>
      refine .inl ((bind_ok (getSlots_eq w) _).trans ?_)
      rw [halive]
      rfl
    | lower e =>
      simp only [operate, note_eq hb, pure_bind]
      exact hcall _
    | _ => exact hcall _

/-! ## Callbacks -/

/-- A change of what an application knows. -/
structure Registers (g : Entry H → Entry H) : Prop where
  layer : ∀ e, (g e).layer = e.layer
  inner : ∀ e, (g e).inner = e.inner
  outer : ∀ e, (g e).outer = e.outer
  pollInterval : ∀ e, (g e).pollInterval = e.pollInterval

/-- The same change of a connection and of that which the application uses for it. -/
theorem Raised.update (h : Raised K t hs f n w w') (hn : (hs ++ [t]).Nodup) (hne : hs ≠ []) (hx : x ∉ hs)
    {g g' : Entry H → Entry H} (hg : Registers g) (hg' : Registers g')
    (hk : ∀ e e', w.stack.find? x = some e → Known K e e' → Known K (g e) (g' e')) :
    Raised K t hs f n { w with stack := w.stack.update x g }
      { w' with stack := w'.stack.update (raise t hs x) g' } := by
  have ht := not_mem_of_nodup hn
  have hsame : Same { w with stack := w.stack.update x g } { w' with stack := w'.stack.update (raise t hs x) g' } :=
    ⟨h.same.net, h.same.shared, h.same.memory⟩
  by_cases hxt : x = t
  · subst hxt
    rw [raise_self] at hsame ⊢
    have htop := headD_mem (t := x) hne
    have hne' : x ≠ hs.headD x := fun hc => ht (hc ▸ htop)
    refine ⟨hsame, h.depth, h.depth', h.pumping, fun y hy hy' => ?_, ?_⟩
    · have hyt : y ≠ hs.headD x := fun hc => hy' (hc ▸ htop)
      show Option.Rel (Peer K) ((w.stack.update x g).find? y) ((w'.stack.update (hs.headD x) g').find? y)
      rw [find?_update, if_neg hy, find?_update, if_neg hyt]
      exact h.other y hy hy'
    · rcases h.own with ⟨⟨l, e, e', top, hstands⟩, hrest⟩ | ⟨⟨hgone, hgone'⟩, hrest⟩
      · have hbase : (w'.stack.update (hs.headD x) g').find? x = some e' := by
          rw [find?_update, if_neg hne', hstands.base.find?]
        refine .inl ⟨⟨l, g e, e', g' top, ⟨?_, (hg.layer e).trans hstands.own.layer,
          (hg.inner e).trans hstands.own.inner, ?_⟩, (hg.outer e).trans hstands.outer,
          ⟨hbase, hstands.base.layer, hstands.base.inner, hstands.base.outer⟩, hstands.drained,
          hstands.pollInterval.trans (hg.pollInterval e).symm, ?_, ?_, hk e top hstands.own.find? hstands.known⟩, hrest⟩
        · rw [find?_update, if_pos rfl, hstands.own.find?]
          rfl
        · rw [hg.outer]
          exact hstands.own.outer
        · refine pile_relinked hstands.pile (fun y hy ey hey => ?_) ?_
          · rw [find?_update]
            by_cases hyt : y = hs.headD x
            · rw [if_pos hyt, ← hyt, hey]
              exact ⟨g' ey, rfl, hg'.layer ey, hg'.inner ey, hg'.outer ey⟩
            · rw [if_neg hyt]
              exact ⟨ey, hey, rfl, rfl, rfl⟩
          · unfold outer?
            rw [hbase, hstands.base.find?]
        · rw [find?_update, if_pos rfl, hstands.uppermost]
          rfl
      · refine .inr ⟨⟨?_, fun z hz => ?_⟩, hrest⟩
        · rw [find?_update, if_pos rfl, hgone]
          rfl
        · rw [find?_update]
          split
          · rw [hgone' _ (List.mem_append_left _ htop)]
            rfl
          · exact hgone' z hz
  · rw [raise_of_ne hxt] at hsame ⊢
    refine h.others hne hsame rfl rfl rfl rfl ?_ (fun y hy => ?_) (fun y hy hy' => ?_) fun m hm => hm
    · exact find?_update_of_ne (Ne.symm hxt)
    · refine find?_update_of_ne fun hc => ?_
      rw [List.mem_append, List.mem_singleton, hc] at hy
      exact hy.elim hx hxt
    · have hrel := h.other y hy hy'
      show Option.Rel (Peer K) ((w.stack.update x g).find? y) ((w'.stack.update x g').find? y)
      rw [find?_update, find?_update]
      by_cases hyx : y = x
      · subst hyx
        rw [if_pos rfl, if_pos rfl]
        have hknown := hk
        revert hrel hknown
        generalize w.stack.find? y = e
        generalize w'.stack.find? y = e'
        rintro (hpeer | _) hknown
        · rename_i e e'
          obtain ⟨l, hl, hl'⟩ := hpeer.layer
          exact .some ⟨⟨l, (hg.layer e).trans hl, (hg'.layer e').trans hl'⟩,
            ⟨(hg.inner e).trans hpeer.inner.1, (hg'.inner e').trans hpeer.inner.2⟩,
            ⟨(hg.outer e).trans hpeer.outer.1, (hg'.outer e').trans hpeer.outer.2⟩, hknown e e' rfl hpeer.known⟩
        · exact .none
      · rw [if_neg hyx, if_neg hyx]
        exact hrel

end Stack

end Conduit
