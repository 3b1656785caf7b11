import Conduit.Proofs.Layer.Fares
import Conduit.Proofs.Tls.Contracts

/-!
# Engines over an endpoint

What an engine pushes goes to the endpoint below, as far as there is room.

* `Takes`: what becomes of an endpoint while an engine pushes.
* `drive_fares`: driving the engine of a session over an open endpoint is a run of it, with its pushes taken so.
-/

namespace Conduit

open Loopback Layer Layer.Act

namespace Tls

variable {H : Host} {o : Loopback.Options} {low : Handle} {p q : Pcb} {ps qs : List Push}

/-- Each push is taken as far as there is room. -/
inductive Takes (o : Loopback.Options) : Pcb → List Push → Pcb → Prop
  | nil (p : Pcb) : Takes o p [] p
  | cons {p q : Pcb} {d : Bytes} {ps : List Push} (h : Takes o (p.wrote (d.take (min (p.room o) d.length))) ps q) :
      Takes o p (⟨d, .ok (min (p.room o) d.length)⟩ :: ps) q

theorem Takes.append {p₁ : Pcb} (h : Takes o p ps p₁) (h' : Takes o p₁ qs q) : Takes o p (ps ++ qs) q := by
  induction h with
  | nil => exact h'
  | cons _ ih => exact .cons (ih h')

theorem Takes.taken (h : Takes o p ps q) : Taken ps := by
  induction h with
  | nil =>
    intro x hx
    cases hx
  | cons _ ih =>
    intro x hx
    rcases List.mem_cons.1 hx with rfl | hx
    · exact ⟨_, rfl⟩
    · exact ih x hx

/-- What was taken is held. -/
theorem Takes.toList_eq (h : Takes o p ps q) : q.unsent.toList = p.unsent.toList ++ sent ps := by
  induction h with
  | nil => exact (List.append_nil _).symm
  | cons _ ih =>
    rw [ih, sent_cons]
    show (Segments.push _ _).toList ++ _ = _
    rw [Segments.toList_push, List.append_assoc]
    rfl

theorem Takes.wellFormed (h : Takes o p ps q) (hp : p.unsent.WellFormed) : q.unsent.WellFormed := by
  induction h with
  | nil => exact hp
  | cons _ ih => exact ih hp.push

/-- Nothing changes but the data that is held. -/
theorem Takes.frame (h : Takes o p ps q) : q = { p with unsent := q.unsent, written := q.written } := by
  induction h with
  | nil => rfl
  | cons _ ih =>
    rw [ih]
    rfl

/-- Where a push is not taken whole, no room is left. -/
theorem Takes.room_eq (h : Takes o p ps q) (hc : Cramped ps) : q.room o = 0 := by
  induction h with
  | nil =>
    obtain ⟨qs, d, n, hqs, -⟩ := hc
    cases qs <;> cases hqs
  | @cons p q d ps h ih =>
    obtain ⟨qs, d', n, hqs, hn⟩ := hc
    cases qs with
    | nil =>
      cases hqs
      cases h
      unfold Pcb.room at hn ⊢
      have hsize : (p.wrote (d.take (min (o.sndbuf - p.unsent.size) d.length))).unsent.size =
          p.unsent.size + min (o.sndbuf - p.unsent.size) d.length := by
        show (Segments.push _ _).size = _
        rw [Segments.size_push, List.length_take]
        omega
      omega
    | cons x qs =>
      cases hqs
      exact ih ⟨qs, d', n, rfl, hn⟩

theorem push_fares {f : Feed} {d : Bytes} {post : Except Fault Nat → Feed → Pcb → List Event → Prop} (ho : p.IsOpen)
    (h : post (.ok (min (p.room o) d.length)) f (p.wrote (d.take (min (p.room o) d.length))) []) :
    Fares o low (Feed.push d : Layer.Act H Feed _) f p post := by
  unfold Feed.push
  simp only [fares_bind, fares_inner]
  simp only [fares_sndbuf, List.nil_append]
  split
  · rename_i h0
    rw [h0, List.take_zero] at h
    exact h
  · rename_i h0
    rw [fares_bind]
    have hlen : (d.take (min (p.room o) d.length)).length = min (p.room o) d.length := by
      rw [List.length_take]
      omega
    refine fares_write _ _ ho (fun hn => h0 ?_) (by rw [hlen]; exact Nat.min_le_left ..) (by simpa using h)
    rw [← List.length_eq_zero_iff, hlen] at hn
    exact hn

/-- One request of an engine, as a layer answers it. -/
theorem answer_fares {f : Feed} (hf : f.rx.WellFormed) (ho : p.IsOpen) (r : RecordReq H.Shared)
    {post : r.Ans → Feed → Pcb → List Event → Prop}
    (h : ∀ x (f' : Feed) ps q, Hears r x f.rx.toList ps f'.rx.toList → f'.rx.WellFormed →
      f'.taken + f'.rx.size = f.taken + f.rx.size → Takes o p ps q → post x f' q []) :
    Fares (α := no_index r.Ans) o low (Feed.answer r) f p post := by
  cases r with
  | available =>
    have := h f.rx.size f [] p (by rw [hf.size_eq]; exact .available _) hf rfl (.nil p)
    simpa [Feed.answer] using this
  | peek n =>
    have := h (f.rx.peek n) f [] p (by rw [Segments.peek_eq]; exact .peek _ _) hf rfl (.nil p)
    simpa [Feed.answer] using this
  | pull n =>
    obtain ⟨h₁, h₂, h₃⟩ := Segments.read_eq hf (n := n)
    have := h (f.rx.read n).1 ⟨(f.rx.read n).2, f.taken + (f.rx.read n).1.length⟩ [] p
      (by rw [h₁]; simp only [h₂]; exact .pull _ _) h₃
      (by simp only [h₃.size_eq, h₂, h₁, hf.size_eq, List.length_take, List.length_drop]; omega) (.nil p)
    simpa [Feed.answer] using this
  | push d =>
    refine push_fares ho (h _ f [⟨d, _⟩] _ (.push _ _ (fun n hn => ?_) _) hf rfl (.cons (.nil _)))
    cases hn
    exact Nat.min_le_right ..
  | note n => simpa [Feed.answer] using h () f [] p (.note _ _) hf rfl (.nil p)
  | shared =>
    refine (fares_request _).2 ⟨fun v => ⟨_, _, _, .shared p v⟩, ?_⟩
    rintro v q es ⟨⟩
    exact h v f [] p (.shared _ _) hf rfl (.nil p)
  | setShared v =>
    refine (fares_request _).2 ⟨fun _ => ⟨_, _, _, .setShared p v⟩, ?_⟩
    rintro x q es ⟨⟩
    exact h () f [] p (.setShared _ _) hf rfl (.nil p)

theorem run_fares {α : Type} (m : EngineAct H.Shared α) {f : Feed} (hf : f.rx.WellFormed) (ho : p.IsOpen)
    {Q : α → Feed → Pcb → List Event → Prop}
    (h : ∀ a (f' : Feed) ps q, Works m f.rx.toList ps f'.rx.toList a → f'.rx.WellFormed →
      f'.taken + f'.rx.size = f.taken + f.rx.size → Takes o p ps q → Q a f' q []) :
    Fares o low (m.run Feed.answer) f p Q := by
  induction m generalizing f p Q with
  | done a => exact h a f [] p (.done _ _) hf rfl (.nil p)
  | ask r next ih =>
    rw [Program.run_ask, fares_bind]
    refine answer_fares hf ho r fun x f₁ ps p₁ hx hf₁ hs hp₁ => ?_
    have ho₁ : p₁.IsOpen := by
      rw [hp₁.frame]
      exact ho
    refine ih x hf₁ ho₁ fun a f' qs q ha hf' hs' hq => ?_
    exact h a f' _ _ (.ask hx ha) hf' (hs'.trans hs) (hp₁.append hq)

/-- **Driving an engine over an open endpoint.** The engine works over the ciphertext that has arrived; what it takes is
counted, and its pushes are taken as far as there is room. -/
theorem drive_fares {σ α : Type} {s : Session H.Engine} (hs : s.rx.WellFormed) (ho : p.IsOpen)
    {m : EngineAct H.Shared (H.Engine × α)} {l : σ} {post : Session H.Engine × α → σ → Pcb → List Event → Prop}
    (h : ∀ a e rx ps q, Works m s.rx.toList ps rx.toList (e, a) → rx.WellFormed → Takes o p ps q →
      post (s.worked e rx, a) l q []) : Fares o low (s.drive m) l p post := by
  have hr : Fares o low (m.run Feed.answer) ⟨s.rx, s.bytesRead⟩ p fun r f' q es =>
      post ({ s with engine := r.1, rx := f'.rx, bytesRead := f'.taken }, r.2) l q es :=
    run_fares m hs ho fun r f' ps q hw hf' hn hq => by
      have hle : f'.rx.size ≤ s.rx.size := by rw [hf'.size_eq, hs.size_eq]; exact hw.length_le
      have hb : f'.taken = s.bytesRead + (s.rx.size - f'.rx.size) := by
        simp only at hn
        omega
      rw [hb]
      exact h _ _ _ _ _ hw hf' hq
  show Program.Fares o low ((m.run Feed.answer) ⟨s.rx, s.bytesRead⟩ >>= _) p _
  rw [Program.fares_bind]
  refine Program.Fares.mono hr fun r q es hq => ?_
  show post _ l q (es ++ [])
  rw [List.append_nil]
  exact hq

end Tls

end Conduit
