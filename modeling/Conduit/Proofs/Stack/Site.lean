import Conduit.Proofs.Stack.Served

/-!
# Sites

A TLS connection stands on a plain connection, which stands on an endpoint of the loopback net.

* `Site.Stands`: what is found at a site.
* `Becomes`: what becomes of a world when one method runs at a site.
* `secure_ends`, `plain_ends`: the methods of both layers, run in the stack.
* `Site.Beside`: nothing has changed but at a site.
-/

namespace Conduit

open Exec Loopback

namespace Stack

variable {H : Host} {b : Behaviour H} {k i : Nat} {w w' w'' : World H} {p q : Pcb} {es fs : List Event}

/-! ## One method -/

/-- The connection `id` has got the layer `layer` and has emitted `es`, the endpoint `i` has become `q`; nothing else
has changed but what is remembered. -/
structure Becomes (id : Handle) (layer : Layer H) (i : Nat) (w : World H) (q : Pcb) (es : List Event) (w' : World H) :
    Prop where
  alike : (w.stack.update id fun e => { e with layer := some layer }).Alike w'.stack
  queue : w'.stack.queue = w.stack.queue ++ es.map fun e => ⟨id, e, .resolve⟩
  net : w'.net = w.net.update i fun _ => q

namespace Becomes

variable {id other : Handle} {layer layer' : Layer H} {e : Entry H}

theorem find?_self (h : Becomes id layer i w q es w') (he : w.stack.find? id = some e) :
    w'.stack.find? id = some { e with layer := some layer } := by
  rw [h.alike.find?, Slots.find?_update_self, he]
  rfl

theorem find?_of_ne (h : Becomes id layer i w q es w') (hne : other ≠ id) :
    w'.stack.find? other = w.stack.find? other := by
  rw [h.alike.find?, Slots.find?_update_of_ne hne]

/-- A layer that has become what it was. -/
theorem refl (he : w.stack.find? id = some e) (hl : e.layer = some layer) :
    Becomes id layer i w (w.net.pcb i) [] w := by
  refine ⟨⟨fun other => ?_, rfl, rfl⟩, (List.append_nil _).symm, (Net.update_self _ _).symm⟩
  rw [Slots.find?_update]
  split
  · rename_i h
    rw [h, he, Option.map_some, ← hl]
  · rfl

theorem trans (h : Becomes id layer i w p es w') (h' : Becomes id layer' i w' q fs w'') :
    Becomes id layer' i w q (es ++ fs) w'' := by
  refine ⟨⟨fun other => ?_, h'.alike.depth.trans h.alike.depth, h'.alike.pumping.trans h.alike.pumping⟩, ?_, ?_⟩
  · rw [h'.alike.find?, Slots.find?_update, Slots.find?_update, h.alike.find?, h.alike.find?, Slots.find?_update_self,
      Option.map_map]
    split
    · rfl
    · rename_i hne
      rw [Slots.find?_update_of_ne hne]
  · rw [h'.queue, h.queue, List.map_append, List.append_assoc]
  · rw [h'.net, h.net, Net.update_update fun _ => rfl]

theorem pcb (h : Becomes id layer i w q es w') (hi : i < w.net.pcbs.size) : w'.net.pcb i = q := by
  rw [h.net, Net.pcb_update_self hi]

end Becomes

/-- A method of a layer that runs as one over its endpoint. -/
theorem withLayer_becomes {answers : Answers H} {free : Handle → Exec H Unit} {id : Handle} {m : Method} {e : Entry H}
    {layer : Layer H} {P : m.Reply → Layer H → Pcb → List Event → Prop} (he : w.stack.find? id = some e)
    (hl : e.layer = some layer)
    (h : Ends ((runMethod b answers id m layer).run false) (entered id w) fun r w' =>
      r.2 = false ∧ ∃ q es, P r.1.2 r.1.1 q es ∧ Shifts id i (entered id w) q es w') :
    Ends (withLayer b answers free id m) w fun r w' =>
      ∃ y layer' q es, r = .ok y ∧ P y layer' q es ∧ Becomes id layer' i w q es w' := by
  refine withLayer_ends he hl (h.mono ?_)
  rintro ⟨⟨layer', y⟩, flag⟩ w₁ ⟨hf, q, es, hp, hs⟩
  refine ⟨hf, hs.alike, fun w' hnet hqueue ha => ⟨y, layer', q, es, rfl, hp, ha, ?_, ?_⟩⟩
  · rw [hqueue, hs.queue]
    rfl
  · rw [hnet, hs.net]
    rfl

/-! ## What is found -/

/-- Where a TLS connection is: its handle, that of the plain connection below, and the endpoint below that. -/
structure Site where
  tls : Handle
  tcp : Handle
  pcb : Nat

namespace Site

variable {x y : Site} {e d : Entry H} {l l' : Tls.Layer H.Source H.Engine} {g g' : Plain H.Pcb}

/-- Two sites that have nothing in common. -/
structure Apart (x y : Site) : Prop where
  left : x.tls ≠ x.tcp
  right : y.tls ≠ y.tcp
  upper : x.tls ≠ y.tls
  lower : x.tcp ≠ y.tcp
  across : x.tls ≠ y.tcp
  back : x.tcp ≠ y.tls
  endpoint : x.pcb ≠ y.pcb

theorem Apart.symm (h : x.Apart y) : y.Apart x :=
  ⟨h.right, h.left, h.upper.symm, h.lower.symm, h.back.symm, h.across.symm, h.endpoint.symm⟩

/-- At the site `x` there are the connections `e` and `d`, with the layers `l` and `g`. -/
structure Stands (x : Site) (w : World H) (e d : Entry H) (l : Tls.Layer H.Source H.Engine) (g : Plain H.Pcb) :
    Prop where
  upper : w.stack.find? x.tls = some e
  lower : w.stack.find? x.tcp = some d
  secure : e.layer = some (.secure l)
  plain : d.layer = some (.plain g)
  inner : e.inner = some x.tcp
  uppermost : e.outer = none
  outer : d.outer = some x.tls
  pcb : g.pcb = some (.loopback x.pcb)
  endpoint : x.pcb < w.net.pcbs.size

/-- Nothing has changed but at the site `x`, in the queue, and what is remembered. -/
structure Beside (x : Site) (w w' : World H) : Prop where
  find? : ∀ id, id ≠ x.tls → id ≠ x.tcp → w'.stack.find? id = w.stack.find? id
  depth : w'.stack.depth = w.stack.depth
  pumping : w'.stack.pumping = w.stack.pumping
  net : ∃ q, w'.net = w.net.update x.pcb fun _ => q

theorem Beside.refl (x : Site) (w : World H) : x.Beside w w :=
  ⟨fun _ _ _ => rfl, rfl, rfl, _, (Net.update_self _ x.pcb).symm⟩

theorem Beside.trans (h : x.Beside w w') (h' : x.Beside w' w'') : x.Beside w w'' := by
  obtain ⟨p, hp⟩ := h.net
  obtain ⟨q, hq⟩ := h'.net
  refine ⟨fun id h₁ h₂ => (h'.find? id h₁ h₂).trans (h.find? id h₁ h₂), h'.depth.trans h.depth,
    h'.pumping.trans h.pumping, q, ?_⟩
  rw [hq, hp, Net.update_update fun _ => rfl]

theorem Beside.options (h : x.Beside w w') : w'.net.options = w.net.options := by
  obtain ⟨q, hq⟩ := h.net
  rw [hq, Net.options_update]

theorem Beside.actions (h : x.Beside w w') : w'.net.actions = w.net.actions := by
  obtain ⟨q, hq⟩ := h.net
  rw [hq, Net.actions_update]

theorem beside_of_becomes {id : Handle} {layer : Layer H} (h : Becomes id layer x.pcb w q es w')
    (hid : id = x.tls ∨ id = x.tcp) : x.Beside w w' := by
  refine ⟨fun other h₁ h₂ => h.find?_of_ne ?_, h.alike.depth, h.alike.pumping, q, h.net⟩
  rcases hid with rfl | rfl
  · exact h₁
  · exact h₂

theorem Stands.secured (hs : x.Stands w e d l g) (hx : x.tls ≠ x.tcp)
    (h : Becomes x.tls (.secure l') x.pcb w q es w') :
    x.Stands w' { e with layer := some (.secure l') } d l' g :=
  ⟨h.find?_self hs.upper, (h.find?_of_ne hx.symm).trans hs.lower, rfl, hs.plain, hs.inner, hs.uppermost, hs.outer,
    hs.pcb, by rw [h.net, Net.size_update]; exact hs.endpoint⟩

theorem Stands.plained (hs : x.Stands w e d l g) (hx : x.tls ≠ x.tcp) (hg : g'.pcb = g.pcb)
    (h : Becomes x.tcp (.plain g') x.pcb w q es w') : x.Stands w' e { d with layer := some (.plain g') } l g' :=
  ⟨(h.find?_of_ne hx).trans hs.upper, h.find?_self hs.lower, hs.secure, rfl, hs.inner, hs.uppermost, hs.outer,
    hg.trans hs.pcb, by rw [h.net, Net.size_update]; exact hs.endpoint⟩

/-- What happens at one site is not seen at another. -/
theorem Stands.beside (hs : y.Stands w e d l g) (hxy : x.Apart y) (h : x.Beside w w') : y.Stands w' e d l g := by
  obtain ⟨q, hq⟩ := h.net
  refine ⟨?_, ?_, hs.secure, hs.plain, hs.inner, hs.uppermost, hs.outer, hs.pcb, ?_⟩
  · rw [h.find? _ hxy.upper.symm hxy.back.symm]
    exact hs.upper
  · rw [h.find? _ hxy.across.symm hxy.lower.symm]
    exact hs.lower
  · rw [hq, Net.size_update]
    exact hs.endpoint

theorem Stands.over (hs : x.Stands w e d l g) (hx : x.tls ≠ x.tcp) : Over x.tls x.tcp x.pcb (entered x.tls w) := by
  refine ⟨?_, ⟨d, g, ?_, hs.plain, hs.pcb⟩, Nat.succ_pos _, hs.endpoint⟩
  · show ((w.stack.update x.tls _).find? x.tls).bind _ = _
    rw [Slots.find?_update_self, hs.upper]
    exact hs.inner
  · show (w.stack.update x.tls _).find? x.tcp = _
    rw [Slots.find?_update_of_ne hx.symm]
    exact hs.lower

/-- **A method of the TLS layer** fares in the stack as it does over its endpoint. -/
theorem Stands.secure_ends {free : Handle → Exec H Unit} {m : Method}
    {P : m.Reply → Tls.Layer H.Source H.Engine → Pcb → List Event → Prop} (hs : x.Stands w e d l g)
    (hx : x.tls ≠ x.tcp)
    (h : Layer.Act.Fares w.net.options x.tcp (Secure.step b.engine x.tls m) l (w.net.pcb x.pcb) P) :
    Ends (withLayer b (exec b k) free x.tls m) w fun r w' =>
      ∃ y l' q es, r = .ok y ∧ P y l' q es ∧ Becomes x.tls (.secure l') x.pcb w q es w' := by
  have hrun : Ends ((runMethod b (exec b k) x.tls m (.secure l)).run false) (entered x.tls w) fun r w' =>
      r.2 = false ∧ ∃ q es, (∃ l', r.1.1 = .secure l' ∧ P r.1.2 l' q es) ∧
        Shifts x.tls x.pcb (entered x.tls w) q es w' := by
    unfold runMethod
    rw [ends_run_bind]
    refine (fares_ends (hs.over hx) h).mono ?_
    rintro ⟨⟨y, l'⟩, flag⟩ w' ⟨rfl, q, es, hp, hw⟩
    rw [ends_run_pure]
    exact ⟨rfl, q, es, ⟨l', rfl, hp⟩, hw⟩
  refine (withLayer_becomes (P := fun y layer q es => ∃ l', layer = .secure l' ∧ P y l' q es) hs.upper hs.secure
    hrun).mono ?_
  rintro r w' ⟨y, -, q, es, rfl, ⟨l', rfl, hp⟩, hw⟩
  exact ⟨y, l', q, es, rfl, hp, hw⟩

end Site

/-! ## The plain layer -/

/-- A program that only emits. -/
def telling {α : Type} (es : List Event) (a : α) : Program (Layer.io H) α :=
  match es with
  | [] => .done a
  | e :: es => .ask (.emit e) fun _ => telling es a

theorem telling_ends {α : Type} {id : Handle} {answers : Answers H} {a : α} {flag : Bool}
    (h : ∀ f, Event.error f ∉ es) :
    Ends (((telling es a).run (answerLayer b answers id)).run flag) w fun r w' =>
      r = (a, flag) ∧ Shifts id i w (w.net.pcb i) es w' := by
  induction es generalizing w with
  | nil =>
    rw [telling, Program.run_done, ends_run_pure]
    exact ⟨rfl, .refl ..⟩
  | cons e es ih =>
    have he : w.stack.enqueue id e = { w.stack with queue := w.stack.queue ++ [⟨id, e, .resolve⟩] } := by
      unfold Slots.enqueue
      split
      · rename_i f
        exact absurd List.mem_cons_self (h f)
      · rfl
    rw [telling, Program.run_ask, ends_run_bind]
    simp only [answerLayer, ends_run_lift, enqueue, ends_modifySlots]
    rw [he]
    refine (ih fun f hf => h f (List.mem_cons_of_mem _ hf)).mono ?_
    rintro r w' ⟨rfl, hw⟩
    refine ⟨rfl, ?_⟩
    have hfirst : Shifts id i w (w.net.pcb i) [e] { w with
        stack := { w.stack with queue := w.stack.queue ++ [⟨id, e, .resolve⟩] } } :=
      ⟨⟨fun _ => rfl, rfl, rfl⟩, rfl, (Net.update_self _ _).symm⟩
    exact hfirst.trans hw

/-- **A method of the plain layer** that only emits. -/
theorem plain_ends {free : Handle → Exec H Unit} {answers : Answers H} {id : Handle} {m : Method} {e : Entry H}
    {g g' : Plain H.Pcb} {y : m.Reply} (he : w.stack.find? id = some e) (hl : e.layer = some (.plain g))
    (hm : Plain.step id m g = telling es (y, g')) (hes : ∀ f, Event.error f ∉ es) :
    Ends (withLayer b answers free id m) w fun r w' => r = .ok y ∧ Becomes id (.plain g') i w (w.net.pcb i) es w' := by
  have hrun : Ends ((runMethod b answers id m (.plain g)).run false) (entered id w) fun r w' =>
      r.2 = false ∧ ∃ q fs, (r.1 = (.plain g', y) ∧ q = w.net.pcb i ∧ fs = es) ∧ Shifts id i (entered id w) q fs w' := by
    unfold runMethod
    rw [ends_run_bind]
    show Ends (((Plain.step id m g).run (answerLayer b answers id)).run false) _ _
    rw [hm]
    refine (telling_ends (i := i) hes).mono ?_
    rintro r w' ⟨rfl, hw⟩
    rw [ends_run_pure]
    exact ⟨rfl, _, es, ⟨rfl, rfl, rfl⟩, hw⟩
  refine (withLayer_becomes (i := i)
    (P := fun y' layer q fs => layer = .plain g' ∧ y' = y ∧ q = w.net.pcb i ∧ fs = es) he hl (hrun.mono ?_)).mono ?_
  · rintro ⟨⟨layer, y'⟩, flag⟩ w' ⟨hf, q, fs, ⟨hr, hq, hfs⟩, hw⟩
    cases hr
    exact ⟨hf, q, fs, ⟨rfl, rfl, hq, hfs⟩, hw⟩
  · rintro r w' ⟨y', layer, q, fs, rfl, ⟨rfl, rfl, rfl, rfl⟩, hw⟩
    exact ⟨rfl, hw⟩

end Stack

namespace Plain

open Stack

variable {H : Host} {low : Handle} {g : Plain H.Pcb} {text : Bytes}

/-- Nothing is held, and more may come. -/
structure Rests (g : Plain H.Pcb) : Prop where
  rx : g.rx.WellFormed
  empty : g.rx.toList = []
  inFlight : g.inFlight = none
  noFin : g.finPending = false
  notShut : g.rxShut = false

/-- All that is held is out. -/
structure Offers (text : Bytes) (g : Plain H.Pcb) : Prop where
  rx : g.rx.WellFormed
  held : g.rx.toList = text
  inFlight : g.inFlight = some g.rx.size
  noFin : g.finPending = false
  notShut : g.rxShut = false

theorem offer_data (hf : g.inFlight = none) (hs : g.rxShut = false) (he : g.rx.isEmpty = false) :
    Plain.offer low g = telling [.recv g.rx.toList] ((), { g with inFlight := some g.rx.size }) := by
  show (if g.inFlight.isSome = true then (pure () : Act H Unit) else _) g = _
  rw [if_neg (by rw [hf]; simp), if_neg (by rw [hs]; simp), if_pos (by rw [he]; rfl)]
  rfl

theorem offer_nothing (hf : g.inFlight = none) (hs : g.rxShut = false) (he : g.rx.isEmpty = true)
    (hn : g.finPending = false) : Plain.offer low g = telling [] ((), g) := by
  show (if g.inFlight.isSome = true then (pure () : Act H Unit) else _) g = _
  rw [if_neg (by rw [hf]; simp), if_neg (by rw [hs]; simp), if_neg (by rw [he]; simp), if_neg (by rw [hn]; simp)]
  rfl

theorem step_sent (n : Nat) : Plain.step low (.op (.lower (.sent n))) g = telling [.sent n] (.ok (), g) := rfl

/-- Data that arrives is handed up. -/
theorem Rests.step_recv (low : Handle) (hg : g.Rests) (ht : text ≠ []) :
    ∃ g', Plain.step low (.op (.lower (.recv text))) g = telling [.recv text] (.ok (), g') ∧ g'.Offers text ∧
      g'.pcb = g.pcb := by
  have hlist : (g.rx.push text).toList = text := by rw [Segments.toList_push, hg.empty, List.nil_append]
  have he : (g.rx.push text).isEmpty = false := by
    cases hb : (g.rx.push text).isEmpty with
    | false => rfl
    | true => exact absurd (hlist.symm.trans (hg.rx.push.isEmpty_iff.1 hb)) ht
  have hoffer : Plain.offer low { g with rx := g.rx.push text } = _ := offer_data hg.inFlight hg.notShut he
  rw [hlist] at hoffer
  refine ⟨{ g with rx := g.rx.push text, inFlight := some (g.rx.push text).size }, ?_,
    ⟨hg.rx.push, hlist, rfl, hg.noFin, hg.notShut⟩, rfl⟩
  show (Plain.offer low { g with rx := g.rx.push text } >>= fun r => _) = _
  rw [hoffer]
  rfl

theorem settle_taken {n : Nat} (h : g.inFlight = some n) :
    Plain.settle low (.ok ()) g = Plain.offer low { g with rx := g.rx.advance n, inFlight := none } := by
  cases g
  cases h
  rfl

/-- Data that was taken is dropped. -/
theorem Offers.step_settled (low : Handle) (hg : g.Offers text) :
    ∃ g', Plain.step low (.settled (.ok ())) g = telling [] ((), g') ∧ g'.Rests ∧ g'.pcb = g.pcb := by
  have hnil : (g.rx.advance g.rx.size).toList = [] := by
    rw [Segments.toList_advance hg.rx, hg.rx.size_eq, List.drop_length]
  have he : (g.rx.advance g.rx.size).isEmpty = true := hg.rx.advance.isEmpty_iff.2 hnil
  refine ⟨{ g with rx := g.rx.advance g.rx.size, inFlight := none }, ?_,
    ⟨hg.rx.advance, hnil, rfl, hg.noFin, hg.notShut⟩, rfl⟩
  show Plain.settle low (.ok ()) g = _
  rw [settle_taken hg.inFlight]
  exact offer_nothing rfl hg.notShut he hg.noFin

end Plain

end Conduit
