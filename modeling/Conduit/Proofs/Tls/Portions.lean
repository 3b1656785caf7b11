import Conduit.Proofs.Tls.Inbound
import Conduit.Proofs.Tls.Lifetime

/-!
# Plaintext in portions

A TLS layer opens no more plaintext than one delivery carries, and hands all of it up at once. What the receiver refuses
stays where it is, and nothing is opened behind it.

* `Layer.Portioned`: at most one portion is held, and what is out is all of it.
* `Shows`: what a move is to the receiver. `Move.shows`: every move is one of those.
* `Layer.Awaits`: what was refused is held still, and is not out.
* `Life.offers_in_portions`: **whatever a layer is called for, what it hands up is a portion**, and what was refused
  comes again as it was.
-/

namespace Conduit

open Layer

/-- What was refused comes again as it was, before anything else is handed up. -/
def Reception.Repeats : Reception → List Happening → Prop
  | _, [] => True
  | r, x :: xs => (∀ data y, x = .offers data → r.refused = some y → data = y) ∧ (r.next x).Repeats xs

theorem Reception.repeats_append {r : Reception} {hs hs' : List Happening} :
    r.Repeats (hs ++ hs') ↔ r.Repeats hs ∧ (r.after hs).Repeats hs' := by
  induction hs generalizing r with
  | nil => simp [Repeats]
  | cons x hs ih => simp [Repeats, after, ih, and_assoc]

/-- A method brings a verdict or ciphertext, but hands nothing up. -/
theorem Method.repeats_happenings (m : Method) (r : Reception) : r.Repeats m.happenings := by
  unfold Method.happenings
  split <;> simp [Reception.Repeats]

theorem Method.offers_notMem_happenings (m : Method) (data : Bytes) : .offers data ∉ m.happenings := by
  unfold Method.happenings
  split <;> simp

/-- Where no verdict is awaited, one changes nothing. -/
theorem Reception.next_settles {r : Reception} (h : r.offer = none) (taken : Bool) : r.next (.settles taken) = r := by
  cases r
  cases taken <;> simp_all [Reception.next]

theorem Method.happenings_of_leaves {m : Method} (hm : m.leaves = true) : m.happenings = [] := by
  unfold Method.leaves at hm
  split at hm
  · rfl
  · rfl
  · rfl
  · rfl
  · cases hm

namespace Tls

/-! ## Portions -/

section

variable {S E : Type} {n : Nat} {l l' : Layer S E} {s s' : Session E} {r r' : Reception}

/-- A session holds at most `n` bytes of plaintext, and a delivery that is out is all of it, and not empty. -/
structure Session.Portioned (n : Nat) (s : Session E) : Prop where
  size_le : s.rxApp.size ≤ n
  inFlight : ∀ k, s.inFlight = some k → k = s.rxApp.size ∧ 0 < k

theorem Session.Portioned.of_same (h : s.Portioned n) (ha : s'.rxApp = s.rxApp) (hf : s'.inFlight = s.inFlight) :
    s'.Portioned n := by
  refine ⟨ha ▸ h.size_le, fun k hk => ?_⟩
  rw [ha]
  exact h.inFlight k (hf ▸ hk)

theorem Session.portioned_ofEngine (n : Nat) (e : E) : (Session.ofEngine e).Portioned n :=
  ⟨Nat.zero_le _, fun _ hk => by cases hk⟩

/-- With nothing out, only the size matters. -/
theorem Session.Portioned.of_none (ha : s.rxApp.size ≤ n) (hf : s.inFlight = none) : s.Portioned n := by
  refine ⟨ha, fun k hk => ?_⟩
  rw [hf] at hk
  cases hk

/-- The session, if there is one, holds at most one portion. -/
def Layer.Portioned (l : Layer S E) : Prop := ∀ s, l.session = some s → s.Portioned l.config.options.rxChunkSize

theorem Layer.Portioned.of_none (h : l.session = none) : l.Portioned := by
  intro s hs
  rw [h] at hs
  cases hs

theorem Layer.Blank.portioned (h : l.Blank) : l.Portioned := by
  intro s hs
  obtain ⟨e, rfl⟩ := h.session s hs
  exact Session.portioned_ofEngine _ e

/-- Before the handshake is done nothing was handed up. While a layer reads, the receiver has what is out, and what it
refused last is held and not out. -/
structure Layer.Awaits (r : Reception) (l : Layer S E) : Prop where
  early : l.phase = .handshaking → r.offer = none ∧ r.refused = none ∧ ∀ s, l.session = some s → s.inFlight = none
  reading : l.Reading → ∃ s, l.session = some s ∧ (r.offer = s.inFlight.map fun _ => s.rxApp.toList) ∧
    ∀ x, r.refused = some x → s.inFlight = none ∧ x = s.rxApp.toList ∧ x ≠ []

theorem Layer.Blank.awaits (h : l.Blank) : l.Awaits {} := by
  refine ⟨fun _ => ⟨rfl, rfl, fun s hs => ?_⟩, fun hr => absurd h.phase (hr.phase_ne (by simp))⟩
  obtain ⟨e, rfl⟩ := h.session s hs
  rfl

/-- A layer that is past its handshake and does not read waits for nothing. -/
theorem Layer.awaits_of_not_reading (hp : l.phase ≠ .handshaking) (hr : ¬ l.Reading) : l.Awaits r :=
  ⟨fun h => absurd h hp, fun h => absurd h hr⟩

/-- What was refused is nothing empty, so a layer that reads and holds nothing has had nothing refused. -/
theorem Layer.Awaits.of_held_nil (h : l.Awaits r) (hr : l.Reading) (hs : l.session = some s) (hf : s.inFlight = none)
    (ha : s.rxApp.toList = []) : r.offer = none ∧ r.refused = none := by
  obtain ⟨s₁, hs₁, hoffer, hrefused⟩ := h.reading hr
  cases hs.symm.trans hs₁
  rw [hf] at hoffer
  refine ⟨hoffer, Option.eq_none_iff_forall_ne_some.2 fun x hx => ?_⟩
  obtain ⟨-, heq, hne⟩ := hrefused x hx
  exact hne (heq.trans ha)

/-! ## What is left alone -/

/-- What `l` holds for its receiver, `l'` holds too, and it is no nearer to the beginning. -/
structure Layer.Saves (l l' : Layer S E) : Prop where
  config : l'.config = l.config
  session : ∀ s', l'.session = some s' → ∃ s, l.session = some s ∧ s'.rxApp = s.rxApp ∧ s'.inFlight = s.inFlight
  lasts : l'.Reading → l'.session = none → l.session = none
  reading : l'.Reading → l.Reading ∨ l.phase = .handshaking ∧ l.session ≠ none
  early : l'.phase = .handshaking → l.phase = .handshaking

namespace Layer.Saves

theorem refl (l : Layer S E) : l.Saves l := ⟨rfl, fun s hs => ⟨s, hs, rfl, rfl⟩, fun _ h => h, .inl, id⟩

/-- Another session, that holds the same plaintext. -/
theorem holding (hs : l.session = some s) (ha : s'.rxApp = s.rxApp) (hf : s'.inFlight = s.inFlight) :
    l.Saves (l.holding s') := by
  refine ⟨rfl, fun s₁ hs₁ => ?_, fun _ h => (nomatch h), .inl, id⟩
  cases hs₁
  exact ⟨s, hs, ha, hf⟩

/-- A layer that does not read, whose session was before. -/
theorem of_not_reading (hc : l'.config = l.config)
    (hs : ∀ s', l'.session = some s' → ∃ s, l.session = some s ∧ s'.rxApp = s.rxApp ∧ s'.inFlight = s.inFlight)
    (hr : ¬ l'.Reading) (hp : l'.phase = .handshaking → l.phase = .handshaking) : l.Saves l' :=
  ⟨hc, hs, fun h => absurd h hr, fun h => absurd h hr, hp⟩

theorem broken (l : Layer S E) : l.Saves l.broken :=
  .of_not_reading rfl (fun _ h => (nomatch h)) (fun h => nomatch h.1) fun h => nomatch h

theorem ended (l : Layer S E) : l.Saves l.ended :=
  .of_not_reading rfl (fun s hs => ⟨s, session_of_ended hs, rfl, rfl⟩) (fun h => h.2 rfl) id

theorem silenced (l : Layer S E) : l.Saves l.silenced := by
  refine ⟨rfl, fun s hs => ⟨s, session_of_silenced hs, rfl, rfl⟩, fun hr hn => ?_, fun h => .inl h, id⟩
  have hopen : l.rxState ≠ .closed := hr.2
  simpa [Layer.silenced, hopen] using hn

variable {l₁ : Layer S E}

theorem trans (h : l.Saves l₁) (h' : l₁.Saves l') : l.Saves l' := by
  refine ⟨h'.config.trans h.config, fun s' hs' => ?_, fun hr hn => ?_, fun hr => ?_, fun hp => h.early (h'.early hp)⟩
  · obtain ⟨s₁, hs₁, ha₁, hf₁⟩ := h'.session s' hs'
    obtain ⟨s, hs, ha, hf⟩ := h.session s₁ hs₁
    exact ⟨s, hs, ha₁.trans ha, hf₁.trans hf⟩
  · have hn₁ := h'.lasts hr hn
    rcases h'.reading hr with hr₁ | ⟨-, hsome⟩
    · exact h.lasts hr₁ hn₁
    · exact absurd hn₁ hsome
  · rcases h'.reading hr with hr₁ | ⟨hp, hsome⟩
    · exact h.reading hr₁
    · refine .inr ⟨h.early hp, fun hn => ?_⟩
      obtain ⟨s₁, hs₁⟩ := Option.ne_none_iff_exists'.1 hsome
      obtain ⟨s, hs, -⟩ := h.session s₁ hs₁
      rw [hn] at hs
      cases hs

theorem portioned (h : l.Saves l') (hl : l.Portioned) : l'.Portioned := by
  intro s' hs'
  obtain ⟨s, hs, ha, hf⟩ := h.session s' hs'
  rw [h.config]
  exact (hl s hs).of_same ha hf

theorem awaits (h : l.Saves l') (hl : l.Awaits r) (ho : r'.offer = r.offer) (hr : r'.refused = r.refused) :
    l'.Awaits r' := by
  refine ⟨fun hp => ?_, fun hread => ?_⟩
  · obtain ⟨hoffer, hrefused, hflight⟩ := hl.early (h.early hp)
    refine ⟨ho.trans hoffer, hr.trans hrefused, fun s' hs' => ?_⟩
    obtain ⟨s, hs, -, hf⟩ := h.session s' hs'
    exact hf.trans (hflight s hs)
  · -- a layer that reads has a session, and had it before
    have hsome : ∃ s, l.session = some s ∧ (r.offer = s.inFlight.map fun _ => s.rxApp.toList) ∧
        ∀ x, r.refused = some x → s.inFlight = none ∧ x = s.rxApp.toList ∧ x ≠ [] := by
      rcases h.reading hread with hbefore | ⟨hp, hn⟩
      · exact hl.reading hbefore
      · obtain ⟨s, hs⟩ := Option.ne_none_iff_exists'.1 hn
        obtain ⟨hoffer, hrefused, hflight⟩ := hl.early hp
        refine ⟨s, hs, by rw [hoffer, hflight s hs]; rfl, fun x hx => ?_⟩
        rw [hrefused] at hx
        cases hx
    obtain ⟨s, hs, hoffer, hrefused⟩ := hsome
    cases hs' : l'.session with
    | none =>
      have hnone := h.lasts hread hs'
      rw [hs] at hnone
      cases hnone
    | some s' =>
      obtain ⟨s₁, hs₁, ha, hf⟩ := h.session s' hs'
      cases hs.symm.trans hs₁
      refine ⟨s', rfl, ?_, ?_⟩
      · rw [ho, ha, hf]
        exact hoffer
      · rw [hr, ha, hf]
        exact hrefused

end Layer.Saves

end

/-! ## Moves -/

variable {H : Host} {ops : EngineOps H.Engine H.Shared} {b me : Handle} {l₀ l l₁ l' : Layer H.Source H.Engine}
  {s s' : Session H.Engine} {d u v : Trace H} {r : Reception} {failed : Bool} {hs : List Happening}

/-- What a move is to the receiver: what is held is left alone, the end of the stream apart; or it is all handed up; or
there was nothing, and a portion is opened. -/
inductive Shows (l : Layer H.Source H.Engine) : List Happening → Layer H.Source H.Engine → Prop
  | saves {l' : Layer H.Source H.Engine} (h : l.Saves l') : Shows l [] l'
  | ends {l' : Layer H.Source H.Engine} (f : Bool) (h : l.Saves l') : Shows l [.ends f] l'
  | offers {s : Session H.Engine} (hr : l.Reading) (hs : l.session = some s) (ha : s.rxApp.toList ≠ []) :
      Shows l [.offers s.rxApp.toList] (l.holding s.offered)
  | opens {s s' : Session H.Engine} (hr : l.Reading) (hs : l.session = some s) (hf : s.inFlight = none)
      (ha : s.rxApp.toList = []) (hf' : s'.inFlight = none) (hsize : s'.rxApp.size ≤ l.config.options.rxChunkSize) :
      Shows l [] (l.holding s')

theorem Completes.frame {n : Nat} (h : Completes b s n u s') : s'.rxApp = s.rxApp ∧ s'.inFlight = s.inFlight := by
  cases h with
  | partly | fully => exact ⟨rfl, rfl⟩

theorem Opens.saves {x : Except Fault Decrypted} (h : Opens ops b l s x u s') : l.Saves (l.holding s') := by
  cases h with
  | intro hp hr hs hf ha n hd =>
    obtain ⟨happ, -, -, hflight⟩ := hd.frame
    exact .holding hs happ hflight

theorem Breaks.handed_eq {x : RxState} (h : Breaks b x v) : handed true v = [] ∨ handed true v = [.ends true] := by
  cases h with
  | told hr hu =>
    rename_i w
    refine .inr ?_
    rw [← List.singleton_append, handed_append, hu.handed_eq]
    rfl
  | known hu => exact .inl hu.handed_eq

/-- The loss of a session, of which the receiver is told unless it knows. -/
theorem Breaks.shows {x : RxState} (h : Breaks b x v) (hu : handed true u = []) : Shows l (handed true (u ++ v)) l.broken := by
  rw [handed_append, hu, List.nil_append]
  rcases h.handed_eq with hv | hv
  · rw [hv]
    exact .saves (.broken l)
  · rw [hv]
    exact .ends true (.broken l)

theorem handed_asked (o : Op) (x : o.Reply) (hu : handed failed u = []) (hv : handed failed v = []) :
    handed (H := H) failed (u ++ ⟨.ask b o, x⟩ :: v) = [] := by
  rw [← List.singleton_append, handed_append, handed_append, hu, hv]
  rfl

/-- **Each move leaves what is held alone, hands it up, or opens a portion.** -/
theorem Move.shows (h : Move ops b l d l') (hm : Measured ops) (hl : l.Sound)
    (hf : l'.phase = .failed → failed = true) : Shows l (handed failed d) l' := by
  cases h with
  | idle hx =>
    rw [hx.handed_eq]
    exact .saves (.refl l)
  | connecting => exact .saves ⟨rfl, fun s hs => ⟨s, hs, rfl, rfl⟩, fun _ h => h, .inl, id⟩
  | @shaken s s' p u v hp hs hd x hv =>
    obtain ⟨happ, -, -, hflight⟩ := hd.frame
    rw [handed_asked .output x hd.handed_eq hv.handed_eq]
    refine .saves ⟨rfl, fun s₁ hs₁ => ?_, fun _ h => (nomatch h), fun _ => .inr ⟨hp, by simp [hs]⟩, fun _ => hp⟩
    cases hs₁
    exact ⟨s, hs, happ, hflight⟩
  | unshaken hp hs hd x hv hw =>
    obtain rfl := hf rfl
    exact hw.shows (handed_asked .output x hd.handed_eq hv.handed_eq)
  | sealed data sent hs => exact .saves (.holding hs rfl rfl)
  | flushed hs hd =>
    obtain ⟨happ, -, -, hflight⟩ := hd.frame
    rw [hd.handed_eq]
    exact .saves (.holding hs happ hflight)
  | offered hp hr hs hflight ha => exact .offers ⟨hp, hr⟩ hs ha
  | @opened s s₁ s' text u v ho hv =>
    rw [handed_append, ho.handed_eq, hv.handed_eq]
    cases ho with
    | intro hp hr hs hflight ha n hd hn =>
      obtain ⟨happ, -, -, hflight₁⟩ := hd.frame
      obtain ⟨ps, hw, -⟩ := hd.works
      obtain ⟨happ', hflight'⟩ := hv.frame
      have hempty : s.rxApp.size = 0 := by rw [(hl s hs).rxApp.size_eq, ha, List.length_nil]
      have hsize : s'.rxApp.size = text.length := by
        rw [happ', Session.opened, happ, Segments.size_push, hempty, Nat.zero_add]
      refine .opens ⟨hp, hr⟩ hs hflight ha (hflight'.trans (hflight₁.trans hflight)) ?_
      rw [hsize, ← hn]
      exact hm hw
  | @stalled s s₁ s' u v ho hq hv =>
    obtain ⟨happ, hflight⟩ := hv.frame
    rw [handed_append, ho.handed_eq, hv.handed_eq]
    exact .saves (ho.saves.trans (.holding rfl happ hflight))
  | @drained s s₁ s' u v ho hq hv =>
    obtain ⟨happ, hflight⟩ := hv.frame
    rw [handed_append, handed_append, ho.handed_eq, hv.handed_eq]
    have hsaves : l.Saves (l.holding s') := ho.saves.trans (.holding rfl happ hflight)
    exact .ends failed (hsaves.trans (.ended _))
  | @finished s s' u v ho hv =>
    rw [handed_append, handed_append, ho.handed_eq, hv.handed_eq]
    have hsaves : l.Saves (l.holding s'.recordDone) := ho.saves.trans (.holding rfl rfl rfl)
    exact .ends failed (hsaves.trans (.ended _))
  | unopened ho hv =>
    obtain rfl := hf rfl
    exact hv.shows ho.handed_eq

/-- A layer goes on to hold at most one portion, and what is handed up is one. -/
theorem Shows.portioned (h : Shows l hs l') (hsound : l.Sound) (hl : l.Portioned) :
    l'.Portioned ∧ ∀ data, .offers data ∈ hs → 1 ≤ data.length ∧ data.length ≤ l.config.options.rxChunkSize := by
  cases h with
  | saves h => exact ⟨h.portioned hl, by simp⟩
  | ends f h => exact ⟨h.portioned hl, by simp⟩
  | @offers s hr hs ha =>
    have hwf := (hsound s hs).rxApp
    have hle := (hl s hs).size_le
    have hpos : 0 < s.rxApp.toList.length := List.length_pos_iff.2 ha
    rw [hwf.size_eq] at hle
    refine ⟨?_, fun data hdata => ?_⟩
    · rintro _ ⟨⟩
      refine ⟨(hl s hs).size_le, fun k hk => ?_⟩
      obtain rfl : s.rxApp.size = k := Option.some.inj hk
      exact ⟨rfl, by rw [hwf.size_eq]; exact hpos⟩
    · obtain rfl : data = s.rxApp.toList := by simpa using hdata
      exact ⟨hpos, hle⟩
  | opens hr hs hf ha hf' hsize =>
    refine ⟨?_, by simp⟩
    rintro _ ⟨⟩
    exact .of_none hsize hf'

/-- What was refused is what is handed up next, and until then it stays what is held. -/
theorem Shows.awaits (h : Shows l hs l') (hl : l.Awaits r) : r.Repeats hs ∧ l'.Awaits (r.after hs) := by
  cases h with
  | saves h => exact ⟨trivial, h.awaits hl rfl rfl⟩
  | ends f h => exact ⟨⟨by simp, trivial⟩, h.awaits hl rfl rfl⟩
  | @offers s hr hs ha =>
    obtain ⟨s₁, hs₁, -, hrefused⟩ := hl.reading hr
    cases hs.symm.trans hs₁
    refine ⟨⟨fun data y hdata hy => ?_, trivial⟩, fun hp => absurd hp (hr.phase_ne (by simp)), fun _ => ?_⟩
    · cases hdata
      exact (hrefused y hy).2.1.symm
    · exact ⟨s.offered, rfl, rfl, fun x hx => by cases hx⟩
  | opens hr hs hf ha hf' hsize =>
    obtain ⟨hoffer, hrefused⟩ := hl.of_held_nil hr hs hf ha
    refine ⟨trivial, fun hp => absurd hp (hr.phase_ne (by simp)), fun _ => ⟨_, rfl, ?_, fun x hx => ?_⟩⟩
    · rw [hf']
      exact hoffer
    · have hx : r.refused = some x := hx
      rw [hrefused] at hx
      cases hx

theorem Moves.portioned (h : Moves ops b l d l') (hm : Measured ops) (hsound : l.Sound) (hl : l.Portioned)
    (hf : l'.phase = .failed → failed = true) :
    l'.Portioned ∧ ∀ data, .offers data ∈ handed failed d →
      1 ≤ data.length ∧ data.length ≤ l.config.options.rxChunkSize := by
  induction h with
  | refl => exact ⟨hl, by simp⟩
  | step h hs ih =>
    obtain ⟨hl₁, hoffers⟩ := (h.shows hm hsound fun hp => hf (hs.stays_failed hp)).portioned hsound hl
    obtain ⟨hl', hoffers'⟩ := ih (h.sound hsound) hl₁ hf
    refine ⟨hl', fun data hdata => ?_⟩
    rw [handed_append, List.mem_append] at hdata
    rcases hdata with hdata | hdata
    · exact hoffers data hdata
    · rw [← h.config]
      exact hoffers' data hdata

theorem Moves.awaits (h : Moves ops b l d l') (hm : Measured ops) (hsound : l.Sound) (hl : l.Awaits r)
    (hf : l'.phase = .failed → failed = true) :
    r.Repeats (handed failed d) ∧ l'.Awaits (r.after (handed failed d)) := by
  induction h generalizing r with
  | refl => exact ⟨trivial, hl⟩
  | step h hs ih =>
    obtain ⟨hrep, hl₁⟩ := (h.shows hm hsound fun hp => hf (hs.stays_failed hp)).awaits hl
    obtain ⟨hrep', hl'⟩ := ih (h.sound hsound) hl₁ hf
    rw [handed_append, Reception.repeats_append, Reception.after_append]
    exact ⟨⟨hrep, hrep'⟩, hl'⟩

/-! ## Methods -/

theorem Enter.handed_eq {m : Method} (h : Enter b m l d l') : handed failed d = [] := by
  cases h with
  | dropped _ hu | recved _ _ hu => exact hu.handed_eq
  | cut hp hu =>
    rw [handed_append, hu.handed_eq]
    rfl
  | _ => rfl

theorem Enter.portioned {m : Method} (h : Enter b m l d l') (hl : l.Portioned) : l'.Portioned := by
  cases h with
  | quiet | dropped | unfinished | unasked | unrecved => exact hl
  | finished => exact hl
  | arrived hs | recved hp hs => exact Layer.Saves.portioned (.holding hs rfl rfl) hl
  | cut | lost => exact .of_none rfl
  | @taken _ s n hs hf =>
    rintro _ ⟨⟩
    have hle := (hl s hs).size_le
    refine .of_none ?_ rfl
    show (s.rxApp.advance n).size ≤ l.config.options.rxChunkSize
    rw [Segments.size_advance]
    omega
  | refused hs hf =>
    rintro _ ⟨⟩
    exact .of_none (hl _ hs).size_le rfl

/-- Ciphertext and acknowledgements leave the receiver as it was; a verdict tells what it has and what is held. -/
theorem Enter.awaits {m : Method} (h : Enter b m l d l') (hsound : l.Sound) (hp : l.Portioned) (hl : l.Awaits r) :
    l'.session = none ∧ frees d = true ∨ l'.Awaits (r.after m.happenings) := by
  cases h with
  | quiet hm =>
    rw [happenings_of_isQuiet hm]
    exact .inr hl
  | arrived hs hr => exact .inr (Layer.Saves.awaits (.holding hs rfl rfl) hl rfl rfl)
  | dropped => exact .inr ((Layer.Saves.refl l).awaits hl rfl rfl)
  | finished hphase hr =>
    have hsaves : l.Saves { l with rxState := .eofQueued } :=
      ⟨rfl, fun s hs => ⟨s, hs, rfl, rfl⟩, fun _ h => h, fun _ => .inl ⟨hphase, by simp [hr]⟩, id⟩
    exact .inr (hsaves.awaits hl rfl rfl)
  | unfinished => exact .inr hl
  | cut hphase hu => exact .inl ⟨rfl, by simp [frees]⟩
  | lost => exact .inl ⟨rfl, rfl⟩
  | @taken _ s n hs hf =>
    refine .inr ⟨fun hphase => ?_, fun hr => ?_⟩
    · have hnone := (hl.early hphase).2.2 s hs
      rw [hf] at hnone
      cases hnone
    · obtain ⟨s₁, hs₁, hoffer, hrefused⟩ := hl.reading hr
      cases hs.symm.trans hs₁
      refine ⟨_, rfl, rfl, fun x hx => ?_⟩
      have hnone := (hrefused x hx).1
      rw [hf] at hnone
      cases hnone
  | @refused _ s n f hs hf =>
    refine .inr ⟨fun hphase => ?_, fun hr => ?_⟩
    · have hnone := (hl.early hphase).2.2 s hs
      rw [hf] at hnone
      cases hnone
    · obtain ⟨s₁, hs₁, hoffer, -⟩ := hl.reading hr
      cases hs.symm.trans hs₁
      rw [hf] at hoffer
      refine ⟨_, rfl, rfl, fun x hx => ?_⟩
      have hx : (r.offer <|> r.refused) = some x := hx
      rw [hoffer] at hx
      obtain rfl : s.rxApp.toList = x := Option.some.inj hx
      refine ⟨rfl, rfl, fun hnil => ?_⟩
      -- what was out was not empty
      obtain ⟨rfl, hpos⟩ := (hp s hs).inFlight n hf
      rw [(hsound s hs).rxApp.size_eq, hnil] at hpos
      exact absurd hpos (by simp)
  | @unasked _ v hn =>
    have hsame : ∀ v : Outcome, r.offer = none → r.after (Method.happenings (.settled v)) = r := by
      intro v hoffer
      cases v with
      | ok _ => exact Reception.next_settles hoffer true
      | error f => exact Reception.next_settles hoffer false
    refine .inr ?_
    by_cases hphase : l.phase = .handshaking
    · rw [hsame v (hl.early hphase).1]
      exact hl
    · by_cases hr : l.Reading
      · obtain ⟨s, hs, hoffer, -⟩ := hl.reading hr
        rw [hn s hs] at hoffer
        rw [hsame v hoffer]
        exact hl
      · exact Layer.awaits_of_not_reading hphase hr
  | recved hphase hs => exact .inr (Layer.Saves.awaits (.holding hs rfl rfl) hl rfl rfl)
  | unrecved => exact .inr hl

theorem Turns.portioned {m : Method} (h : Turns ops b m l d l') (hm : Measured ops) (hsound : l.Sound)
    (hl : l.Portioned) (hf : l'.phase = .failed → failed = true) :
    l'.Portioned ∧ ∀ data, .offers data ∈ handed failed d →
      1 ≤ data.length ∧ data.length ≤ l.config.options.rxChunkSize := by
  cases h with
  | moved he hmoves =>
    rw [handed_append, he.handed_eq, List.nil_append, ← he.config]
    exact hmoves.portioned hm (he.sound hsound) (he.portioned hl) hf
  | drawn hs x c =>
    refine ⟨?_, by simp [handed, handsUp]⟩
    rintro _ ⟨⟩
    exact Session.portioned_ofEngine _ _
  | listened => exact ⟨.of_none rfl, by simp [handed, handsUp]⟩

/-- As long as a layer does not ask to be freed, what was refused waits to be handed up again. -/
theorem Turns.awaits {m : Method} (h : Turns ops b m l d l') (hm : Measured ops) (hsound : l.Sound)
    (hp : l.Portioned) (hl : l.Awaits r) (hf : l'.phase = .failed → failed = true) :
    r.Repeats (m.happenings ++ handed failed d) ∧
      (frees d = false → l'.Awaits (r.after (m.happenings ++ handed failed d))) := by
  rw [Reception.repeats_append, Reception.after_append]
  cases h with
  | @moved _ _ l₁ _ d₁ d₂ he hmoves =>
    rw [handed_append, he.handed_eq, List.nil_append]
    rcases he.awaits hsound hp hl with ⟨hnone, hfree⟩ | hl₁
    · rw [hmoves.handed_of_none hnone, frees_append, hfree]
      exact ⟨⟨m.repeats_happenings r, trivial⟩, fun hn => by cases hn⟩
    · obtain ⟨hrep, hl'⟩ := hmoves.awaits hm (he.sound hsound) hl₁ hf
      exact ⟨⟨m.repeats_happenings r, hrep⟩, fun _ => hl'⟩
  | drawn hs x c =>
    refine ⟨⟨trivial, trivial⟩, fun _ => ⟨fun hphase => ?_, fun hr => ?_⟩⟩
    · obtain ⟨hoffer, hrefused, -⟩ := hl.early hphase
      exact ⟨hoffer, hrefused, fun _ hs' => by cases hs'; rfl⟩
    · obtain ⟨s, hs', -⟩ := hl.reading hr
      rw [hs] at hs'
      cases hs'
  | listened =>
    exact ⟨⟨trivial, trivial⟩, fun _ => Layer.awaits_of_not_reading (by simp) fun hr => nomatch hr.1⟩

theorem Notifies.portioned (h : Notifies ops b l d l') (hm : Measured ops) (hsound : l.Sound) (hl : l.Portioned)
    (hf : l'.phase = .failed → failed = true) :
    l'.Portioned ∧ ∀ data, .offers data ∈ handed failed d →
      1 ≤ data.length ∧ data.length ≤ l.config.options.rxChunkSize := by
  cases h with
  | already => exact ⟨hl, by simp⟩
  | now hs hmoves =>
    exact hmoves.portioned hm (.holding ((hsound _ hs).notified _)) (Layer.Saves.portioned (.holding hs rfl rfl) hl) hf

theorem Notifies.awaits (h : Notifies ops b l d l') (hm : Measured ops) (hsound : l.Sound) (hl : l.Awaits r)
    (hf : l'.phase = .failed → failed = true) :
    r.Repeats (handed failed d) ∧ l'.Awaits (r.after (handed failed d)) := by
  cases h with
  | already => exact ⟨trivial, hl⟩
  | now hs hmoves =>
    exact hmoves.awaits hm (.holding ((hsound _ hs).notified _))
      (Layer.Saves.awaits (.holding hs rfl rfl) hl rfl rfl) hf

theorem handed_ask (o : Op) (x : o.Reply) : handed (H := H) failed (d ++ [⟨.ask b o, x⟩]) = handed failed d := by
  rw [handed_append]
  exact List.append_nil _

theorem handed_closed (x : Outcome) :
    handed (H := H) failed (d ++ [⟨.ask b .close, x⟩, ⟨.release, ()⟩]) = handed failed d := by
  rw [handed_append]
  exact List.append_nil _

theorem Leaves.portioned {m : Method} {x : m.Reply} (h : Leaves ops b m x l d l') (hm : Measured ops)
    (hsound : l.Sound) (hl : l.Portioned) (hf : l'.phase = .failed → failed = true) :
    l'.Portioned ∧ ∀ data, .offers data ∈ handed failed d →
      1 ≤ data.length ∧ data.length ≤ l.config.options.rxChunkSize := by
  cases h with
  | aborted | freed => exact ⟨.of_none rfl, by simp [handed, handsUp]⟩
  | closed ho hn =>
    rw [handed_closed]
    exact ⟨.of_none rfl, (hn.portioned hm hsound hl hf).2⟩
  | unclosed ho hn =>
    rw [handed_ask]
    exact hn.portioned hm hsound hl hf
  | silent => exact ⟨hl, by simp⟩
  | silenced hn =>
    rw [handed_ask]
    obtain ⟨hl₁, hoffers⟩ := hn.portioned hm hsound hl hf
    exact ⟨(Layer.Saves.silenced _).portioned hl₁, hoffers⟩
  | unsilenced hn =>
    rw [handed_ask]
    exact hn.portioned hm hsound hl hf
  | @deafened l u hu =>
    have hnone : handed (H := H) failed (⟨.ask b (.shutdown .read), .ok ()⟩ :: u) = [] :=
      handed_asked (.shutdown .read) (.ok ()) handed_nil hu.handed_eq
    rw [hnone]
    refine ⟨fun s hs => ?_, by simp⟩
    obtain ⟨s₀, -, rfl⟩ := Layer.session_of_deafened hs
    exact .of_none (Nat.zero_le _) rfl
  | undeafened => exact ⟨hl, by simp [handed, handsUp]⟩

/-- Nothing is opened behind what was refused by taking leave. -/
theorem Leaves.awaits {m : Method} {x : m.Reply} (h : Leaves ops b m x l d l') (hm : Measured ops)
    (ha : m ≠ .op .abort) (hd : m ≠ .dealloc) (hsound : l.Sound) (hl : l.Awaits r)
    (hf : l'.phase = .failed → failed = true) :
    r.Repeats (handed failed d) ∧ (frees d = false → l'.Awaits (r.after (handed failed d))) := by
  cases h with
  | aborted => exact absurd rfl ha
  | freed => exact absurd rfl hd
  | closed ho hn =>
    rw [handed_closed, frees_append]
    exact ⟨(hn.awaits hm hsound hl hf).1, fun h => by simp [frees] at h⟩
  | unclosed ho hn =>
    rw [handed_ask]
    obtain ⟨hrep, hl'⟩ := hn.awaits hm hsound hl hf
    exact ⟨hrep, fun _ => hl'⟩
  | silent => exact ⟨trivial, fun _ => hl⟩
  | silenced hn =>
    rw [handed_ask]
    obtain ⟨hrep, hl₁⟩ := hn.awaits hm hsound hl hf
    exact ⟨hrep, fun _ => (Layer.Saves.silenced _).awaits hl₁ rfl rfl⟩
  | unsilenced hn =>
    rw [handed_ask]
    obtain ⟨hrep, hl'⟩ := hn.awaits hm hsound hl hf
    exact ⟨hrep, fun _ => hl'⟩
  | @deafened l u hu =>
    have hnone : handed (H := H) failed (⟨.ask b (.shutdown .read), .ok ()⟩ :: u) = [] :=
      handed_asked (.shutdown .read) (.ok ()) handed_nil hu.handed_eq
    rw [hnone]
    refine ⟨trivial, fun _ => ⟨fun hphase => ?_, fun hr => absurd rfl hr.2⟩⟩
    obtain ⟨hoffer, hrefused, -⟩ := hl.early hphase
    refine ⟨hoffer, hrefused, fun s hs => ?_⟩
    obtain ⟨s₀, -, rfl⟩ := Layer.session_of_deafened hs
    rfl
  | undeafened => exact ⟨trivial, fun _ => hl⟩

/-! ## Lives -/

section Calls

variable {m : Method} {x : m.Reply} {t : Trace H} {h : List (Call H)}

/-- A call leaves the layer at most one portion, and what it hands up is one. -/
theorem Call.portioned (hy : (Secure.step ops me m l).Yields t (x, l')) (hb : Over b t) (hm : Measured ops)
    (hsound : l.Sound) (hl : l.Portioned) :
    l'.Portioned ∧ ∀ data, .offers data ∈ (⟨l, m, x, t, l'⟩ : Call H).happenings →
      1 ≤ data.length ∧ data.length ≤ l.config.options.rxChunkSize := by
  have hfailed : l'.phase = .failed → decide (l'.phase = .failed) = true := decide_eq_true
  have hparts : l'.Portioned ∧ ∀ data, .offers data ∈ handed (l'.phase = .failed) (deeds t) →
      1 ≤ data.length ∧ data.length ≤ l.config.options.rxChunkSize := by
    by_cases hleaves : m.leaves = true
    · exact (Call.leaves hy hb hsound hleaves).portioned hm hsound hl hfailed
    · exact (Call.turns hy hb hsound (by simpa using hleaves)).portioned hm hsound hl hfailed
  refine ⟨hparts.1, fun data hdata => ?_⟩
  rcases List.mem_append.1 hdata with hmethod | htrace
  · exact absurd hmethod (m.offers_notMem_happenings data)
  · rw [← handed_deeds] at htrace
    exact hparts.2 data htrace

/-- A call that does not give the connection up hands up what was refused before anything else. -/
theorem Call.awaits (hy : (Secure.step ops me m l).Yields t (x, l')) (hb : Over b t) (hm : Measured ops)
    (ha : m ≠ .op .abort) (hd : m ≠ .dealloc) (hsound : l.Sound) (hp : l.Portioned) (hl : l.Awaits r) :
    r.Repeats (⟨l, m, x, t, l'⟩ : Call H).happenings ∧
      (frees t = false → l'.Awaits (r.after (⟨l, m, x, t, l'⟩ : Call H).happenings)) := by
  have hfailed : l'.phase = .failed → decide (l'.phase = .failed) = true := decide_eq_true
  unfold Call.happenings
  rw [← handed_deeds, ← frees_deeds t]
  by_cases hleaves : m.leaves = true
  · rw [Method.happenings_of_leaves hleaves]
    exact (Call.leaves hy hb hsound hleaves).awaits hm ha hd hsound hl hfailed
  · exact (Call.turns hy hb hsound (by simpa using hleaves)).awaits hm hsound hp hl hfailed

/-- All its life a layer holds at most one portion, and hands up nothing else. -/
theorem Life.portioned (hl : Life ops b me l₀ h l) (hm : Measured ops) (h₀ : l₀.Blank) :
    l.config = l₀.config ∧ l.Portioned ∧ ∀ data, .offers data ∈ h.flatMap Call.happenings →
      1 ≤ data.length ∧ data.length ≤ l₀.config.options.rxChunkSize := by
  induction hl with
  | start => exact ⟨rfl, h₀.portioned, by simp⟩
  | @call h l l' m x t hl hfree hy hb ih =>
    obtain ⟨hconfig, hp, hoffers⟩ := ih
    have hsound := hl.sound h₀.sound
    obtain ⟨hp', hoffers'⟩ := Call.portioned hy hb hm hsound hp
    refine ⟨(Call.config hy hb hsound).trans hconfig, hp', fun data hdata => ?_⟩
    rw [List.flatMap_append, List.flatMap_singleton, List.mem_append] at hdata
    rcases hdata with hbefore | hnow
    · exact hoffers data hbefore
    · rw [← hconfig]
      exact hoffers' data hnow

/-- All its life a layer that is not given up repeats what was refused. -/
theorem Life.repeats (hl : Life ops b me l₀ h l) (hm : Measured ops) (h₀ : l₀.Blank)
    (hkept : ∀ c ∈ h, c.method ≠ .op .abort ∧ c.method ≠ .dealloc) :
    Reception.Repeats {} (h.flatMap Call.happenings) ∧
      ((∀ c ∈ h, frees c.trace = false) → l.Awaits (Reception.after {} (h.flatMap Call.happenings))) := by
  induction hl with
  | start => exact ⟨trivial, fun _ => h₀.awaits⟩
  | @call h l l' m x t hl hfree hy hb ih =>
    rw [List.forall_mem_append] at hkept
    obtain ⟨hrep, hawaits⟩ := ih hkept.1
    obtain ⟨ha, hd⟩ := hkept.2 _ (List.mem_singleton.2 rfl)
    obtain ⟨hrep', hawaits'⟩ :=
      Call.awaits hy hb hm ha hd (hl.sound h₀.sound) (hl.portioned hm h₀).2.1 (hawaits hfree)
    rw [List.flatMap_append, List.flatMap_singleton, Reception.repeats_append, Reception.after_append]
    exact ⟨⟨hrep, hrep'⟩, fun hfree' => hawaits' (hfree' ⟨l, m, x, t, l'⟩ (by simp))⟩

/-- **Whatever a layer is called for, what it hands up is a portion.** From its creation on, over any connection, with any
answers and in any order of calls, a layer holds at most as much plaintext as one delivery carries; a delivery that is
out is all that is held, and not empty; what is handed up is not empty, and no more than one delivery carries. And as
long as the layer is not given up, the next that is handed up after a refusal is what was refused, whatever ciphertext,
polls and acknowledgements came in between. -/
theorem Life.offers_in_portions (hl : Life ops b me l₀ h l) (hm : Measured ops) (h₀ : l₀.Blank) :
    (∀ s, l.session = some s → s.rxApp.toList.length ≤ l₀.config.options.rxChunkSize ∧
      ∀ n, s.inFlight = some n → n = s.rxApp.toList.length ∧ s.rxApp.toList ≠ []) ∧
    ∀ past data future, h.flatMap Call.happenings = past ++ .offers data :: future →
      (1 ≤ data.length ∧ data.length ≤ l₀.config.options.rxChunkSize) ∧
      ((∀ c ∈ h, c.method ≠ .op .abort ∧ c.method ≠ .dealloc) →
        ∀ x, (Reception.after {} past).refused = some x → data = x) := by
  obtain ⟨hconfig, hp, hoffers⟩ := hl.portioned hm h₀
  refine ⟨fun s hs => ?_, fun past data future heq => ⟨hoffers data (by simp [heq]), fun hkept x hx => ?_⟩⟩
  · have hsize : s.rxApp.size = s.rxApp.toList.length := (hl.sound h₀.sound s hs).rxApp.size_eq
    have hs := hp s hs
    rw [← hsize, ← hconfig]
    refine ⟨hs.size_le, fun n hn => ?_⟩
    obtain ⟨rfl, hpos⟩ := hs.inFlight n hn
    refine ⟨rfl, fun hnil => ?_⟩
    rw [hnil] at hsize
    rw [hsize] at hpos
    exact absurd hpos (by simp)
  · have hrep := (hl.repeats hm h₀ hkept).1
    rw [heq, Reception.repeats_append] at hrep
    exact hrep.2.1 data x rfl hx

/-- The toy client is offered again what it refused. -/
theorem Life.offers_in_portions_refused : ∃ past future data,
    (Toy.calls Toy.farewell).flatMap Call.happenings = past ++ .offers data :: future ∧
      (Reception.after {} past).refused = some [104, 105] ∧ data = [104, 105] ∧
      data.length ≤ Toy.client.config.options.rxChunkSize := by
  have hlife := Toy.life Toy.farewell (by decide +kernel)
  have hkept : ∀ c ∈ Toy.calls Toy.farewell, c.method ≠ .op .abort ∧ c.method ≠ .dealloc := by
    have hleaves : ∀ c ∈ Toy.calls Toy.farewell, c.method.leaves = false := by decide +kernel
    intro c hc
    constructor
    all_goals
      intro h
      have := hleaves c hc
      rw [h] at this
      cases this
  have happened : (Toy.calls Toy.farewell).flatMap Call.happenings =
      Toy.greetings.take 4 ++ .offers [104, 105] :: (Toy.greetings.drop 5 ++ [.ends false]) := by decide +kernel
  obtain ⟨-, hoffers⟩ := Life.offers_in_portions hlife Toy.measured Toy.client_blank
  obtain ⟨hsize, hagain⟩ := hoffers _ _ _ happened
  exact ⟨_, _, _, happened, rfl, hagain hkept _ rfl, hsize.2⟩

end Calls

end Tls

end Conduit
