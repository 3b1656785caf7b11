import Conduit.Proofs.Stack.Shelved
import Conduit.Proofs.Stack.Stale

/-!
# Callbacks that change what is registered

A callback is away from its slot while it runs, and may meanwhile register another one for its connection, or clear all
of them. When it returns, it is put back only if it was neither replaced nor cleared.

* `Program.listing`: a program, with a list of what is found in its requests.
* `Change.apply`: what becomes of what is registered.
* `Recorded.listing_shelved`: **the changes that a program makes are those it asks for**, unless its connection goes.
* `Stack.callback_reinstated`: what the slot of a callback holds once it has returned.
-/

namespace Conduit

/-! ## What a program asks for -/

namespace Program

variable {I : Interface} {α β C : Type} {m : Type → Type} [Monad m] [LawfulMonad m]

/-- A program, with a list of what `f` finds in its requests, in their order. -/
def listing (f : I.Req → Option C) : Program I α → Program I (α × List C)
  | .done a => .done (a, [])
  | .ask r next => .ask r fun x => (fun p => (p.1, (f r).toList ++ p.2)) <$> (next x).listing f

/-- The list plays no part in what is done. -/
theorem fst_listing (f : I.Req → Option C) (p : Program I α) : Prod.fst <$> p.listing f = p := by
  induction p with
  | done a => rfl
  | ask r next ih =>
    show Program.ask r (fun x => Prod.fst <$> (fun q => (q.1, (f r).toList ++ q.2)) <$> (next x).listing f) = _
    simp only [Functor.map_map, ih]

theorem run_map (answer : (r : I.Req) → m (I.Ans r)) (g : α → β) (p : Program I α) :
    (g <$> p).run answer = g <$> p.run answer := by
  rw [map_eq_pure_bind, run_bind, map_eq_pure_bind]
  rfl

end Program

/-! ## Changes -/

namespace Change

variable {C : Type} {kind : CallbackKind} {c : Option C} {n : Nat} {cs : List (Change C)}

/-- Whether something is changed of what is registered for a kind of event. -/
def Concerns (kind : CallbackKind) : Change C → Prop
  | .registered k _ => k = kind
  | .cleared => True

/-- How often the callbacks are cleared. -/
def clears (cs : List (Change C)) : Nat :=
  cs.countP fun
    | .cleared => true
    | .registered _ _ => false

/-- What becomes of what is registered, and of the number of times it was cleared. -/
def apply (kind : CallbackKind) (c : Option C × Nat) : Change C → Option C × Nat
  | .registered k code => (if k = kind then some code else c.1, c.2)
  | .cleared => (none, nextGeneration c.2)

/-- Changes of which none is of this kind. -/
theorem foldl_of_not_concerns (h : ∀ x ∈ cs, ¬ x.Concerns kind) (c : Option C × Nat) : cs.foldl (apply kind) c = c := by
  induction cs with
  | nil => rfl
  | cons x cs ih =>
    obtain ⟨hx, hcs⟩ := List.forall_mem_cons.1 h
    cases x with
    | cleared => exact absurd trivial hx
    | registered k code =>
      have hk : k ≠ kind := hx
      rw [List.foldl_cons, apply, if_neg hk]
      exact ih hcs

/-- The clearings are counted in 32 bits. -/
theorem foldl_epoch (cs : List (Change C)) (c : Option C × Nat) :
    (cs.foldl (apply kind) c).2 = if clears cs = 0 then c.2 else (c.2 + clears cs) % 2 ^ 32 := by
  induction cs generalizing c with
  | nil => rfl
  | cons x cs ih =>
    rw [List.foldl_cons, ih]
    cases x with
    | registered k code => rfl
    | cleared =>
      have hclears : clears (.cleared :: cs) = clears cs + 1 := List.countP_cons_of_pos rfl
      have hnext : (apply kind c .cleared).2 = (c.2 + 1) % 2 ^ 32 := rfl
      rw [hclears, hnext, if_neg (Nat.succ_ne_zero _)]
      split
      · omega
      · omega

/-- After a clearing the count is another one, unless it has started over. -/
theorem foldl_epoch_ne (h : ¬ 2 ^ 32 ∣ clears cs) (c : Option C × Nat) : (cs.foldl (apply kind) c).2 ≠ c.2 := by
  have hpos : clears cs ≠ 0 := fun hc => h (hc ▸ Nat.dvd_zero _)
  rw [foldl_epoch, if_neg hpos]
  omega

/-- What a slot holds after the changes `cs` that were made while its callback ran; `own` is what has become of that
callback. -/
structure Outcome (kind : CallbackKind) (own : C) (cs : List (Change C)) (slot : Option C) : Prop where
  /-- The last one that was registered, if none were cleared after it. -/
  registered : ∀ early code late, cs = early ++ .registered kind code :: late → (∀ x ∈ late, ¬ x.Concerns kind) →
    slot = some code
  /-- Nothing, if all were cleared and none was registered after that. The clearings are counted in 32 bits, so as many
  as that are taken for none. -/
  cleared : ∀ early late, cs = early ++ .cleared :: late → (∀ x ∈ late, ¬ x.Concerns kind) →
    ¬ 2 ^ 32 ∣ clears cs → slot = none
  /-- The callback itself, if nothing was changed for it. -/
  kept : (∀ x ∈ cs, ¬ x.Concerns kind) → slot = some own

/-- The callback is put back if the count is the same and nothing is registered in its place. -/
theorem outcome_of_foldl {own : C} {slot : Option C}
    (h : slot = if (cs.foldl (apply kind) (none, n)).2 = n && (cs.foldl (apply kind) (none, n)).1.isNone then some own
      else (cs.foldl (apply kind) (none, n)).1) : Outcome kind own cs slot := by
  subst h
  refine ⟨fun early code late hcs hlate => ?_, fun early late hcs hlate hn => ?_, fun hcs => ?_⟩
  · have hlast : (cs.foldl (apply kind) (none, n)).1 = some code := by
      rw [hcs, List.foldl_append, List.foldl_cons, foldl_of_not_concerns hlate, apply, if_pos rfl]
    rw [hlast, Option.isNone_some, Bool.and_false, if_neg Bool.false_ne_true]
  · have hlast : (cs.foldl (apply kind) (none, n)).1 = none := by
      rw [hcs, List.foldl_append, List.foldl_cons, foldl_of_not_concerns hlate, apply]
    have hcount : (cs.foldl (apply kind) (none, n)).2 ≠ n := foldl_epoch_ne hn _
    rw [hlast, decide_eq_false hcount, Bool.false_and, if_neg Bool.false_ne_true]
  · rw [foldl_of_not_concerns hcs]
    simp

end Change

open Exec Stack Slots Mark

variable {H : Host} {b : Behaviour H} {w w' : World H} {id x : Handle} {kind : CallbackKind} {e : Entry H} {code : H.Code}
  {α β : Type}

namespace Recorded

variable {h t : List (Mark H)} {c : Option H.Code × Nat}

theorem ends_map (g : α → β) (m : Recorded H α) {post : β → List (Mark H) → World H → Prop} :
    Ends (g <$> m) w post ↔ Ends m w fun a => post (g a) := by
  rw [map_eq_pure_bind, ends_bind]
  simp only [ends_pure, List.append_nil]

/-- A request that changes what is registered does so, as long as the connection is there. -/
theorem exec_changes (k : Nat) {r : Req H} {change : Change H.Code} (hr : r.change id = some change)
    (hj : Shelved id kind c h w) :
    Ends (exec b k r) w fun _ t w' => Shelved id kind (change.apply kind c) (h ++ t) w' := by
  rcases hj with hm | ⟨hs, hp, hc⟩
  · exact fun _ _ _ => .inl (List.mem_append_left _ hm)
  obtain ⟨e, he, hshelf⟩ := Option.map_eq_some_iff.1 hc
  cases k with
  | zero => exact (ends_lift _).2 (ends_throw _)
  | succ k =>
    -- the connection that is found afterwards
    have hupdate : ∀ f : Entry H → Entry H, ((f e).callbacks.get kind, (f e).epoch) = change.apply kind c →
        Shelved id kind (change.apply kind c) (h ++ []) { w with stack := w.stack.update id f } := by
      intro f hf
      refine .inr ⟨hs.update, hp, ?_⟩
      unfold shelf?
      rw [find?_update_self, he, Option.map_some, Option.map_some, hf]
    cases r with
    | register x k' code =>
      by_cases hx : x = id
      · subst hx
        rw [Req.change, if_pos rfl, Option.some_inj] at hr
        subst hr
        refine (ends_lift _).2 ?_
        simp only [Stack.answer, Exec.ends_bind, ends_getSlots]
        rw [if_pos (isAlive_iff.2 ⟨e, he⟩), Exec.ends_bind, ends_modifySlots, Exec.ends_pure]
        refine hupdate _ ?_
        subst hshelf
        simp only [Callbacks.get_set, Change.apply, eq_comm]
      · rw [Req.change, if_neg hx] at hr
        cases hr
    | clearCallbacks x =>
      by_cases hx : x = id
      · subst hx
        rw [Req.change, if_pos rfl, Option.some_inj] at hr
        subst hr
        refine (ends_lift _).2 ?_
        show Exec.Ends (modifySlots fun s => s.clearCallbacks x) w _
        rw [ends_modifySlots]
        refine hupdate _ ?_
        subst hshelf
        cases kind <;> rfl
      · rw [Req.change, if_neg hx] at hr
        cases hr
    | _ => cases hr

/-- **The changes that a program makes are those that it asks for**, in their order, unless the connection goes. -/
theorem listing_shelved (hkind : kind ≠ .err) (hb : b.Spares id) (k : Nat) (p : Act H α) :
    ∀ h w c, Shelved id kind c h w → Ends ((p.listing (Req.change id)).run (exec b k)) w fun r t w' =>
      Shelved id kind (r.2.foldl (Change.apply kind) c) (h ++ t) w' := by
  induction p with
  | done a =>
    intro h w c hj
    rw [Program.listing, Program.run_done, ends_pure, List.append_nil]
    exact hj
  | ask r next ih =>
    intro h w c hj
    have hstep : Ends (exec b k r) w fun _ t w' =>
        Shelved id kind ((r.change id).toList.foldl (Change.apply kind) c) (h ++ t) w' := by
      cases hr : r.change id with
      | none => exact (exec_shelved hkind hb k).request r hr h w hj
      | some change => exact exec_changes k hr hj
    refine (ends_bind _ _).2 (hstep.mono fun a t w' hj' => ?_)
    rw [Program.run_map, ends_map]
    refine (ih a (h ++ t) w' _ hj').mono fun r' u w'' hj'' => ?_
    rw [List.append_assoc] at hj''
    rw [List.foldl_append]
    exact hj''

/-- A connection that has gone is not there, unless its handle is given out once more. -/
def Departed (id : Handle) (h : List (Mark H)) (w : World H) : Prop :=
  w.stack.Counted ∧ (.freed id ∈ h → .born id ∉ h → w.stack.isAlive id = false)

theorem steady_departed (b : Behaviour H) (id : Handle) : Steady b (Departed id) := by
  refine ⟨?_, ?_, ?_, ?_, fun h w n hj => hj, fun h w p o hj => hj⟩
  · rintro h w w' ⟨hs, hd⟩ hsettled -
    refine ⟨hsettled.counted hs, fun hf hn => ?_⟩
    have hdead := hd hf hn
    rw [← Bool.not_eq_true, isAlive_iff_tenants] at hdead ⊢
    rw [hsettled.tenants]
    exact hdead
  · rintro h t w hb hd' ⟨hs, hd⟩
    refine ⟨hs, fun hf hn => hd ?_ fun hc => hn (List.mem_append_left _ hc)⟩
    rcases List.mem_append.1 hf with hf | hf
    · exact hf
    · rw [← mem_departures, hd'] at hf
      cases hf
  · rintro h w name layer ⟨hs, hd⟩
    refine ⟨hs.insert, fun hf hn => ?_⟩
    have hne : id ≠ w.stack.nextHandle := fun hc => hn (by simp [hc])
    have hdead := hd (by simpa using hf) fun hc => hn (List.mem_append_left _ hc)
    rw [isAlive_eq_false] at hdead ⊢
    rw [find?_insert hs, if_neg hne]
    exact hdead
  · rintro h w x ⟨hs, hd⟩ hx
    obtain ⟨e, he⟩ := isAlive_iff.1 hx
    refine ⟨hs.vacate he, fun hf hn => ?_⟩
    rw [isAlive_eq_false, find?_vacate he]
    split
    · rfl
    · rename_i hne
      rw [← isAlive_eq_false]
      exact hd (by simpa [hne] using hf) fun hc => hn (List.mem_append_left _ hc)

end Recorded

namespace Stack

/-- A run of a program is one of the program with its list. -/
theorem exists_listing (k : Nat) (p : Act H α) {a : α} {C : Type} (f : Req H → Option C)
    (h : run b k p w = .ok a w') : ∃ cs t, Recorded.run b k (p.listing f) w = .ok ((a, cs), t) w' := by
  have hlisted : run b k p = Prod.fst <$> run b k (p.listing f) := by
    unfold run
    rw [← Program.run_map, Program.fst_listing]
  rw [hlisted] at h
  change EStateM.map Prod.fst (run b k (p.listing f)) w = _ at h
  unfold EStateM.map at h
  split at h
  · rename_i r w₁ hr
    cases h
    obtain ⟨t, ht⟩ := Recorded.exists_record (Recorded.forget_run k (p.listing f)) hr
    exact ⟨r.2, t, ht⟩
  · cases h

/-- A callback that returns has run while it was away from its slot, and is put back afterwards. -/
theorem callback_ok {k : Nat} {call : Call} {absent : Exec H Outcome} {v : Outcome} (he : w.stack.find? id = some e)
    (hcode : e.callbacks.get kind = some code) (h : callback b (exec b k) id kind call absent w = .ok v w') :
    ∃ code' w₁, run b k (b.callback code call) { w with stack := w.stack.takeCallback id kind } = .ok (code', v) w₁ ∧
      w' = { w₁ with stack := w₁.stack.restoreCallback id kind e.epoch code' } := by
  have hends : Exec.Ends (callback b (exec b k) id kind call absent) w fun v w' => ∃ code' w₁,
      run b k (b.callback code call) { w with stack := w.stack.takeCallback id kind } = .ok (code', v) w₁ ∧
        w' = { w₁ with stack := w₁.stack.restoreCallback id kind e.epoch code' } := by
    unfold callback
    rw [Exec.ends_bind, ends_lookup, he]
    dsimp only
    rw [hcode]
    dsimp only
    rw [Exec.ends_bind, ends_modifySlots, Exec.ends_bind]
    intro r w₁ hr
    rw [Exec.ends_bind, ends_modifySlots, Exec.ends_pure]
    exact ⟨r.1, w₁, hr, rfl⟩
  exact hends v w' h

/-- **A callback that changes what is registered.** It is called while events are being delivered. Whatever it does
meanwhile, and in whatever order, its slot holds in the end

* the last callback that was registered in its place, if none were cleared after that;
* nothing, if the callbacks were cleared and none was registered in its place after that;
* else the callback itself, with what it has captured;

if its connection has not gone meanwhile. If it has, nothing at all is changed when the callback returns; and no other
connection is changed in any case. -/
theorem callback_reinstated (k : Nat) (hb : b.Spares id) (hs : w.stack.Counted) (hp : w.stack.pumping = true)
    (hkind : kind ≠ .err) (he : w.stack.find? id = some e) (hcode : e.callbacks.get kind = some code) (call : Call)
    {absent : Exec H Outcome} {v : Outcome} (h : callback b (exec b k) id kind call absent w = .ok v w') :
    ∃ code' cs t w₁,
      Recorded.run b k ((b.callback code call).listing (Req.change id))
        { w with stack := w.stack.takeCallback id kind } = .ok (((code', v), cs), t) w₁ ∧
      (.freed id ∉ t → ∃ e', w'.stack.find? id = some e' ∧ Change.Outcome kind code' cs (e'.callbacks.get kind)) ∧
      (.freed id ∈ t → .born id ∉ t → w' = w₁) ∧
      ∀ x, x ≠ id → w'.stack.find? x = w₁.stack.find? x := by
  obtain ⟨code', w₁, hrun, rfl⟩ := callback_ok he hcode h
  obtain ⟨cs, t, ht⟩ := exists_listing k (b.callback code call) (Req.change id) hrun
  refine ⟨code', cs, t, w₁, ht, fun hstays => ?_, fun hgone hnew => ?_, fun x hx => find?_update_of_ne hx⟩
  · have htaken : (w.stack.takeCallback id kind).shelf? id kind = some (none, e.epoch) := by
      unfold takeCallback shelf?
      rw [find?_update_self, he, Option.map_some, Option.map_some, Callbacks.get_set, if_pos rfl]
    have hshelved := Recorded.listing_shelved hkind hb k (b.callback code call) []
      { w with stack := w.stack.takeCallback id kind } _ (.inr ⟨hs.update, hp, htaken⟩) _ w₁ ht
    rcases hshelved with hm | ⟨-, -, hshelf⟩
    · exact absurd hm hstays
    obtain ⟨e', he', hfold⟩ := Option.map_eq_some_iff.1 hshelf
    refine ⟨_, (find?_update_self (s := w₁.stack)).trans (by rw [he']; rfl), Change.outcome_of_foldl (n := e.epoch) ?_⟩
    dsimp only at hfold
    rw [← hfold]
    dsimp only
    split
    · exact (Callbacks.get_set _ _ _ _).trans (if_pos rfl)
    · rfl
  · have hdeparted := Recorded.run_upholds (fun _ _ _ hj => hj) (Recorded.steady_departed b id) k
      ((b.callback code call).listing (Req.change id)) [] { w with stack := w.stack.takeCallback id kind }
      ⟨hs.update, fun hc => absurd hc List.not_mem_nil⟩ _ w₁ ht
    have hdead := isAlive_eq_false.1 (hdeparted.2 hgone hnew)
    have hsame : w₁.stack.restoreCallback id kind e.epoch code' = w₁.stack := update_absent hdead
    rw [hsame]

/-! A callback that registers another one in its place, clears them all, and registers one of another kind. -/

instance : DecidableEq meddler.Code := inferInstanceAs (DecidableEq Handle)

/-- An application whose callbacks change their minds. -/
def wavering : Behaviour meddler :=
  { meddling with
    callback := fun code call =>
      match call with
      | .poll me =>
        .ask (.register me .poll ⟨6, 0⟩) fun _ =>
        .ask (.clearCallbacks me) fun _ =>
        .ask (.register me .recv ⟨7, 0⟩) fun _ => .done (code, .ok ())
      | _ => .done (code, .ok ()) }

/-- A connection that is polled, while events are being delivered. -/
def polled : World meddler where
  stack := { ({} : Slots meddler).insert "only" (.passthrough "only") with pumping := true }.update ⟨0, 0⟩ fun e =>
    { e with callbacks := e.callbacks.set .poll (some ⟨5, 0⟩) }
  shared := ()
  memory := ()

theorem callback_reinstated_wavering : ∃ w', callback wavering (exec wavering 3) ⟨0, 0⟩ .poll (.poll ⟨0, 0⟩)
      (pure (.ok ())) polled = .ok (.ok ()) w' ∧
    ∃ e', w'.stack.find? ⟨0, 0⟩ = some e' ∧ e'.callbacks.get .poll = none := by
  have hreaches : Exec.reaches (callback wavering (exec wavering 3) ⟨0, 0⟩ .poll (.poll ⟨0, 0⟩) (pure (.ok ()))) polled
      (fun v _ => v = .ok ()) = true := by decide +kernel
  obtain ⟨v, w', hrun, hv⟩ := Exec.exists_of_reaches hreaches
  obtain rfl := of_decide_eq_true hv
  have hinsert : (({} : Slots meddler).insert "only" (.passthrough "only")).Counted := idle_empty.sound.toCounted.insert
  have hcounted : polled.stack.Counted := Counted.update ⟨hinsert.live, hinsert.nodup, hinsert.mem_free⟩
  obtain ⟨code', cs, t, w₁, ht, hstays, -⟩ := callback_reinstated 3 (b := wavering) (fun l => nomatch l) hcounted rfl
    (by decide) rfl rfl (.poll ⟨0, 0⟩) hrun
  -- what it has asked for
  have hlisted : Exec.reaches (Recorded.run wavering 3 ((wavering.callback ⟨5, 0⟩ (.poll ⟨0, 0⟩)).listing
        (Req.change ⟨0, 0⟩))).whole { polled with stack := polled.stack.takeCallback ⟨0, 0⟩ .poll } (fun r _ =>
      r.1.2 = [.registered .poll ⟨6, 0⟩, .cleared, .registered .recv ⟨7, 0⟩] && Mark.departures r.2 = []) = true := by
    decide +kernel
  unfold Exec.reaches at hlisted
  rw [Recorded.whole, ht] at hlisted
  simp only [Bool.and_eq_true, decide_eq_true_eq] at hlisted
  obtain ⟨rfl, hdepartures⟩ := hlisted
  have hstill : .freed ⟨0, 0⟩ ∉ t := by
    rw [← mem_departures, hdepartures]
    exact List.not_mem_nil
  obtain ⟨e', he', houtcome⟩ := hstays hstill
  refine ⟨w', hrun, e', he', houtcome.cleared [.registered .poll ⟨6, 0⟩] [.registered .recv ⟨7, 0⟩] rfl ?_ ?_⟩
  · intro x hx hconcerns
    rw [List.mem_singleton] at hx
    subst hx
    cases hconcerns
  · show ¬ 2 ^ 32 ∣ 1
    decide

end Stack

end Conduit
