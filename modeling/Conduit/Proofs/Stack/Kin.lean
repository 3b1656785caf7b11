import Conduit.Proofs.Stack.Raised

/-!
# One application in two worlds

-/

namespace Conduit

variable {H : Host}

/-- A call with other handles. -/
def Call.rename (ρ : Handle → Handle) : Call → Call
  | .accept me new => .accept (ρ me) (ρ new)
  | .connected me r => .connected (ρ me) r
  | .recv me data => .recv (ρ me) data
  | .sent me len => .sent (ρ me) len
  | .poll me => .poll (ρ me)
  | .err reason => .err reason

/-- Whether a call hands data over. -/
def Call.delivers : Call → Bool
  | .recv _ (some _) => true
  | _ => false

/-- Whether a call names one of `hs`. -/
def Call.names (hs : List Handle) : Call → Bool
  | .accept me new => me ∈ hs || new ∈ hs
  | .connected me _ | .recv me _ | .sent me _ | .poll me => me ∈ hs
  | .err _ => false

namespace Stack

open Exec Slots

section

variable (K : H.Code → H.Code → Prop) (t : Handle) (hs : List Handle)

/-- Two worlds that are the same to an application, at a time when it may ask: from a callback, or from outside with
nothing to be delivered. -/
structure Ready (busy : Bool) (f : Option Segments) (n : Nat) (w w' : World H) : Prop extends Raised K t hs f n w w' where
  pumps : w.stack.pumping = busy
  rest : busy = false → f = none ∧ w.stack.queue = [] ∧ w'.stack.queue = []

/-- Two programs of one application: the second does what the first does, but for `t` it uses the uppermost of the pile
`hs`, and registers the callbacks that are meant for the one instead of those for the other (`K`). What they come to is
related by `R`. Events are injected from outside callbacks only, and below the pile. -/
inductive Kin (outside : Bool) {α β : Type} (R : α → β → Prop) : Act H α → Act H β → Prop
  | done {a : α} {c : β} (h : R a c) : Kin outside R (.done a) (.done c)
  | ask {x : Handle} {o : Op} {next : o.Reply → Act H α} {next' : o.Reply → Act H β} (hx : x ∉ hs)
    (ho : ∀ e, o ≠ .lower e) (hd : o ≠ .shutdown .both) (h : ∀ r, Kin outside R (next r) (next' r)) :
    Kin outside R (.ask (.ask x o) next) (.ask (.ask (raise t hs x) o) next')
  | inject {e : Event} {next : Outcome → Act H α} {next' : Outcome → Act H β} (houtside : outside = true)
    (he : ∀ new, e = .accept new → new ≠ t ∧ new ∉ hs) (h : ∀ r, Kin outside R (next r) (next' r)) :
    Kin outside R (.ask (.ask t (.lower e)) next) (.ask (.ask t (.lower e)) next')
  | register {x : Handle} {kind : CallbackKind} {c c' : H.Code} {next : Outcome → Act H α} {next' : Outcome → Act H β}
    (hx : x ∉ hs) (hc : K c c') (h : ∀ r, Kin outside R (next r) (next' r)) :
    Kin outside R (.ask (.register x kind c) next) (.ask (.register (raise t hs x) kind c') next')
  | clearCallbacks {x : Handle} {next : Unit → Act H α} {next' : Unit → Act H β} (hx : x ∉ hs)
    (h : Kin outside R (next ()) (next' ())) :
    Kin outside R (.ask (.clearCallbacks x) next) (.ask (.clearCallbacks (raise t hs x)) next')
  | lookup {x : Handle} {next : Option (Entry H) → Act H α} {next' : Option (Entry H) → Act H β} (hx : x ∉ hs)
    (h : ∀ e e', Option.Rel (Known K) e e' → Kin outside R (next e) (next' e')) :
    Kin outside R (.ask (.lookup x) next) (.ask (.lookup (raise t hs x)) next')
  | «recall» {next : H.Memory → Act H α} {next' : H.Memory → Act H β} (h : ∀ m, Kin outside R (next m) (next' m)) :
    Kin outside R (.ask .recall next) (.ask .recall next')
  | remember {m : H.Memory} {next : Unit → Act H α} {next' : Unit → Act H β} (h : Kin outside R (next ()) (next' ())) :
    Kin outside R (.ask (.remember m) next) (.ask (.remember m) next')

/-- An application that accepts every delivery: its callbacks for one world and for the other are kin. -/
def Kindred (b : Behaviour H) : Prop :=
  ∀ c c' call, K c c' → call.names hs = false →
    Kin K t hs false (fun r r' => K r.1 r'.1 ∧ r'.2 = r.2 ∧ (call.delivers = true → r.2 = .ok ()))
      (b.callback c call) (b.callback c' (call.rename (raise t hs)))

end

variable {K : H.Code → H.Code → Prop} {t : Handle} {hs : List Handle} {b : Behaviour H} {w w' u v : World H}
  {f : Option Segments} {n m : Nat} {x : Handle} {o : Op} {k k' : Nat} {busy outside : Bool}

/-- Both are told the same of a connection. -/
theorem Ready.update (h : Ready K t hs busy f n w w') (hn : (hs ++ [t]).Nodup) (hne : hs ≠ []) (hx : x ∉ hs)
    {g g' : Entry H → Entry H} (hg : Registers g) (hg' : Registers g')
    (hk : ∀ e e', w.stack.find? x = some e → Known K e e' → Known K (g e) (g' e')) :
    Ready K t hs busy f n { w with stack := w.stack.update x g }
      { w' with stack := w'.stack.update (raise t hs x) g' } :=
  ⟨h.toRaised.update hn hne hx hg hg' hk, h.pumps, h.rest⟩

/-- **What an application does comes to the same** where operations and events do. -/
theorem Kin.runs (hn : (hs ++ [t]).Nodup) (hne : hs ≠ [])
    (hask : ∀ {w w' : World H} {x : Handle} {o : Op}, Ready K t hs busy f n w w' → x ∉ hs → (∀ e, o ≠ .lower e) →
      o ≠ .shutdown .both → Follows (exec b k (.ask x o)) (exec b (k' + 1) (.ask (raise t hs x) o)) w w'
        fun r u r' v => r' = r ∧ Ready K t hs busy f n u v)
    (hinject : outside = true → ∀ {w w' : World H} {e : Event}, Ready K t hs busy f n w w' →
      (∀ new, e = .accept new → new ≠ t ∧ new ∉ hs) →
      Follows (exec b k (.ask t (.lower e))) (exec b (k' + 1) (.ask t (.lower e))) w w'
        fun r u r' v => r' = r ∧ Ready K t hs busy f n u v)
    {α β : Type} {R : α → β → Prop} {p : Act H α} {p' : Act H β} (hkin : Kin K t hs outside R p p')
    (h : Ready K t hs busy f n w w') :
    Follows (Program.run (exec b k) p) (Program.run (exec b (k' + 1)) p') w w' fun a u c v =>
      R a c ∧ Ready K t hs busy f n u v := by
  induction hkin generalizing w w' with
  | done hr => exact follows_pure ⟨hr, h⟩
  | ask hx ho hd _ ih =>
    refine Follows.bind ((hask h hx ho hd).mono ?_)
    rintro r u r' v ⟨rfl, huv⟩
    exact ih r' huv
  | inject houtside he _ ih =>
    refine Follows.bind ((hinject houtside h he).mono ?_)
    rintro r u r' v ⟨rfl, huv⟩
    exact ih r' huv
  | @register x kind c c' _ _ hx hc _ ih =>
    cases k with
    | zero => exact follows_outOfFuel rfl
    | succ k =>
      have halive := h.isAlive hne hx
      have hregister : ∀ (k : Nat) (y : Handle) (c : H.Code) (w : World H), exec b (k + 1) (.register y kind c) w =
          if w.stack.isAlive y then .ok (.ok ())
            { w with stack := w.stack.update y fun e => { e with callbacks := e.callbacks.set kind (some c) } }
          else .ok (.error .invalidArgument) w := by
        intro k y c w
        refine (bind_ok (getSlots_eq w) _).trans ?_
        cases w.stack.isAlive y <;> rfl
      cases ha : w.stack.isAlive x with
      | true =>
        refine .of_eq (bind_ok ((hregister k x c w).trans (if_pos ha)) _)
          (bind_ok ((hregister k' _ c' w').trans (if_pos (halive.trans ha))) _) (ih _ (h.update hn hne hx ?_ ?_ ?_))
        · exact ⟨fun _ => rfl, fun _ => rfl, fun _ => rfl, fun _ => rfl⟩
        · exact ⟨fun _ => rfl, fun _ => rfl, fun _ => rfl, fun _ => rfl⟩
        · rintro e e' - hknown
          refine ⟨fun kind' => ?_, hknown.epoch, hknown.pollInterval⟩
          rw [Callbacks.get_set, Callbacks.get_set]
          split
          · exact .some hc
          · exact hknown.callbacks kind'
      | false =>
        have hno : ¬ w.stack.isAlive x = true := by rw [ha]; exact Bool.false_ne_true
        have hno' : ¬ w'.stack.isAlive (raise t hs x) = true := by rw [halive]; exact hno
        exact .of_eq (bind_ok ((hregister k x c w).trans (if_neg hno)) _)
          (bind_ok ((hregister k' _ c' w').trans (if_neg hno')) _) (ih _ h)
  | clearCallbacks hx _ ih =>
    cases k with
    | zero => exact follows_outOfFuel rfl
    | succ k =>
      refine .of_eq (bind_ok (x := exec b (k + 1) _) rfl _) (bind_ok (x := exec b (k' + 1) _) rfl _)
        (ih (h.update hn hne hx ?_ ?_ ?_))
      · exact ⟨fun _ => rfl, fun _ => rfl, fun _ => rfl, fun _ => rfl⟩
      · exact ⟨fun _ => rfl, fun _ => rfl, fun _ => rfl, fun _ => rfl⟩
      · rintro e e' - hknown
        refine ⟨fun kind => ?_, congrArg nextGeneration hknown.epoch, hknown.pollInterval⟩
        cases kind <;> exact .none
  | lookup hx _ ih =>
    cases k with
    | zero => exact follows_outOfFuel rfl
    | succ k =>
      exact .of_eq (bind_ok (x := exec b (k + 1) _) rfl _) (bind_ok (x := exec b (k' + 1) _) rfl _)
        (ih _ _ (h.known hne hx) h)
  | «recall» _ ih =>
    cases k with
    | zero => exact follows_outOfFuel rfl
    | succ k =>
      refine .of_eq (bind_ok (x := exec b (k + 1) _) rfl _) (bind_ok (x := exec b (k' + 1) _) rfl _) ?_
      rw [h.same.memory]
      exact ih _ h
  | remember _ ih =>
    cases k with
    | zero => exact follows_outOfFuel rfl
    | succ k =>
      refine .of_eq (bind_ok (x := exec b (k + 1) _) rfl _) (bind_ok (x := exec b (k' + 1) _) rfl _) (ih ?_)
      exact ⟨⟨⟨h.same.net, h.same.shared, rfl⟩, h.depth, h.depth', h.pumping, h.other, h.own⟩, h.pumps, h.rest⟩

/-- A callback that is put back. -/
def restored (kind : CallbackKind) (epoch : Nat) (code : H.Code) (e : Entry H) : Entry H :=
  if e.epoch = epoch && (e.callbacks.get kind).isNone then { e with callbacks := e.callbacks.set kind (some code) } else e

theorem registers_restored (kind : CallbackKind) (epoch : Nat) (code : H.Code) : Registers (restored kind epoch code) := by
  refine ⟨fun e => ?_, fun e => ?_, fun e => ?_, fun e => ?_⟩ <;> unfold restored <;> split <;> rfl

/-- A callback is put back in both, or in none. -/
theorem Known.restored {e e' : Entry H} (h : Known K e e') {code code' : H.Code} (hc : K code code') (kind : CallbackKind)
    (epoch : Nat) : Known K (restored kind epoch code e) (restored kind epoch code' e') := by
  have hnone : (e'.callbacks.get kind).isNone = (e.callbacks.get kind).isNone := by
    have hrel := h.callbacks kind
    revert hrel
    generalize e.callbacks.get kind = c
    generalize e'.callbacks.get kind = c'
    rintro (_ | _) <;> rfl
  unfold Stack.restored
  rw [h.epoch, hnone]
  split
  · refine ⟨fun kind' => ?_, rfl, h.pollInterval⟩
    rw [Callbacks.get_set, Callbacks.get_set]
    split
    · exact .some hc
    · exact h.callbacks kind'
  · exact h

section

variable (hb : b.Logless) (hn : (hs ++ [t]).Nodup) (hne : hs ≠ []) (hk : hs.length < k')
include hb hn hne hk

/-- **An operation that a callback asks for comes to the same.** -/
theorem Ready.asked (h : Ready K t hs true f n w w') (hx : x ∉ hs)
    (ho : ∀ e, o ≠ .lower e) (hd : o ≠ .shutdown .both) :
    Follows (exec b k (.ask x o)) (exec b (k' + 1) (.ask (raise t hs x) o)) w w' fun r u r' v =>
      r' = r ∧ Ready K t hs true f n u v := by
  cases k with
  | zero => exact follows_outOfFuel rfl
  | succ k =>
    have hp' : w'.stack.pumping = true := h.pumping.trans h.pumps
    have halive' := h.isAlive hne hx
    cases ha : w.stack.isAlive x with
    | true =>
      refine .of_eq (exec_attempt k ha) (exec_attempt k' (halive'.trans ha))
        (Follows.bind ((h.toRaised.attempt hb hn hne hx ho hd hk ha).mono ?_))
      rintro r u r' v ⟨rfl, huv, hu⟩
      have hu' : u.stack.pumping = true := hu.trans h.pumps
      have hbusy : (0 < u.stack.depth || u.stack.pumping) = true := by rw [hu', Bool.or_true]
      have hbusy' : (0 < v.stack.depth || v.stack.pumping) = true := by rw [huv.pumping, hu', Bool.or_true]
      refine .of_eq (bind_ok (pump_held hbusy) _) (bind_ok (pump_held hbusy') _) (follows_pure
        ⟨rfl, huv, hu', fun hc => (nomatch hc)⟩)
    | false =>
      obtain ⟨k', rfl⟩ := Nat.exists_eq_succ_of_ne_zero (Nat.ne_of_gt (Nat.zero_lt_of_lt hk))
      have hrun' := (exec_gone hb k' o (isAlive_eq_false.1 (halive'.trans ha)) (.inr (.inl hp'))).1
      rcases (exec_gone hb k o (isAlive_eq_false.1 ha) (.inr (.inl h.pumps))).2 with hrun | ⟨u, hrun⟩
      · exact follows_ok hrun hrun' ⟨rfl, h⟩
      · exact follows_outOfFuel hrun

/-- **What a callback does comes to the same.** -/
theorem Kin.called {α β : Type} {R : α → β → Prop} {p : Act H α} {p' : Act H β} (hkin : Kin K t hs false R p p')
    (h : Ready K t hs true f n w w') :
    Follows (Program.run (exec b k) p) (Program.run (exec b (k' + 1)) p') w w' fun a u c v =>
      R a c ∧ Ready K t hs true f n u v :=
  Kin.runs hn hne (fun h hx ho hd => h.asked hb hn hne hk hx ho hd) (fun hc => absurd hc Bool.false_ne_true) hkin h

/-- **A callback is called in both, or in none**, and with the same verdict. -/
theorem Ready.callback (hkin : Kindred K t hs b) (h : Ready K t hs true f n w w') (hx : x ∉ hs)
    (kind : CallbackKind) (call : Call) (hcall : call.names hs = false) {absent absent' : Exec H Outcome}
    (habsent : Follows absent absent' w w' fun r u r' v =>
      r' = r ∧ Ready K t hs true f n u v ∧ (call.delivers = true → r = .ok ())) :
    Follows (callback b (exec b k) x kind call absent)
      (callback b (exec b (k' + 1)) (raise t hs x) kind (call.rename (raise t hs)) absent') w w' fun r u r' v =>
        r' = r ∧ Ready K t hs true f n u v ∧ (call.delivers = true → r = .ok ()) := by
  have hregisters : ∀ (c : Option H.Code), Registers fun e : Entry H => { e with callbacks := e.callbacks.set kind c } :=
    fun c => ⟨fun _ => rfl, fun _ => rfl, fun _ => rfl, fun _ => rfl⟩
  have hknown := h.known hne hx
  have hlookup : ∀ (y : Handle) (w : World H), lookup y w = .ok (w.stack.find? y) w := fun _ _ => rfl
  unfold Stack.callback
  refine .of_eq (bind_ok (hlookup x w) _) (bind_ok (hlookup _ w') _) ?_
  revert hknown
  generalize hfind : w.stack.find? x = e
  generalize w'.stack.find? (raise t hs x) = e'
  rintro (hknown | _)
  · rename_i e e'
    have hcode := hknown.callbacks kind
    revert hcode
    simp only
    generalize e.callbacks.get kind = c
    generalize e'.callbacks.get kind = c'
    rintro (hc | _)
    · rename_i c c'
      -- the callback is away while it runs
      refine .of_eq (bind_ok (x := modifySlots _) rfl _) (bind_ok (x := modifySlots _) rfl _) ?_
      have haway := h.update hn hne hx (hregisters none) (hregisters none) fun e e' _ hknown =>
        ⟨fun kind' => by rw [Callbacks.get_set, Callbacks.get_set]; split; exacts [.none, hknown.callbacks kind'],
          hknown.epoch, hknown.pollInterval⟩
      refine Follows.bind (((hkin c c' call hc hcall).called hb hn hne hk haway).mono ?_)
      rintro ⟨code, verdict⟩ u ⟨code', verdict'⟩ v ⟨⟨hcode, rfl, haccepts⟩, huv⟩
      refine .of_eq (bind_ok (x := modifySlots _) rfl _) (bind_ok (x := modifySlots _) rfl _)
        (follows_pure ⟨rfl, ?_, haccepts⟩)
      refine huv.update hn hne hx (registers_restored kind e.epoch code) (registers_restored kind e'.epoch code') ?_
      rintro d d' - hd
      exact hknown.epoch ▸ hd.restored hcode kind e.epoch
    · exact habsent
  · exact habsent

end

end Stack

end Conduit
