import Conduit.Proofs.Loopback.Bounds
import Mathlib.Algebra.GroupWithZero.Nat

/-!
# Plans of sizes

A test may lay down a plan of the sizes of the next segments. However the segment size, the window and the buffer cut the
data of an endpoint, no segment goes on over the end of a planned one.

* `Book`: how much an endpoint has sent, and the plan that it was given; `Book.Mark` is where that plan wants a segment
  to end.
* `Book.Keeps`: what is left of a plan agrees with the book.
* `Booked.run_bounded`: **in every course of a net, every endpoint and every segment keeps its bounds.**
-/

namespace Conduit.Loopback

/-! ## Books -/

/-- How much an endpoint has sent, and the plan of sizes that it was given. -/
structure Book where
  sent : Nat := 0
  /-- How much it had sent when the plan was laid down. -/
  base : Nat := 0
  /-- All sizes of the plan, those that were used up as well. -/
  sizes : List Nat := []

namespace Book

/-- Where a plan wants a segment to end: a running sum of its sizes. -/
def Mark (b : Book) (m : Nat) : Prop := ∃ k, m = b.base + (b.sizes.take k).sum

/-- Sizes are added to what is left of a plan. When nothing is left, they are a plan of their own. -/
def extend (b : Book) (left sizes : List Nat) : Book :=
  if left = [] then { b with base := b.sent, sizes } else { b with sizes := b.sizes ++ sizes }

/-- A plan is dropped with its endpoint. -/
def lapse (b : Book) (p : Pcb) : Book := if p.state = .closed ∧ p.splitPlan = [] then { b with sizes := [] } else b

/-- The book is that of an endpoint of which `plan` is what is left of its plan. -/
structure Keeps (b : Book) (plan : List Nat) : Prop where
  base : b.base ≤ b.sent
  /-- What is left of the plan ends where the plan ends. -/
  ends : plan ≠ [] → b.base + b.sizes.sum = b.sent + plan.sum
  /-- A mark is behind, or is one of what is left. -/
  marks : ∀ m, b.Mark m → m ≤ b.sent ∨ ∃ k, m = b.sent + (plan.take k).sum

end Book

/-- A net, and a book for each endpoint. -/
structure Booked where
  net : Net
  book : Nat → Book := fun _ => {}

namespace Booked

/-- What is entered in the book of the endpoint `i`. -/
def entry (k : Booked) (i : Nat) : Happening → Book
  | .step =>
    match k.net.segment? with
    | some (j, len) => if j = i then { k.book i with sent := (k.book i).sent + len } else k.book i
    | none => k.book i
  | .split id sizes =>
    if k.net.owned? id = some i then (k.book i).extend (k.net.pcb i).splitPlan sizes else k.book i
  | _ => k.book i

/-- What is left after something has happened to the net. -/
def undergo (k : Booked) (h : Happening) : Except Halt Booked :=
  (k.net.undergo h).map fun n => ⟨n, fun i => (k.entry i h).lapse (n.pcb i)⟩

/-- What is left after all of this has happened to the net. -/
def run (k : Booked) (hs : List Happening) : Except Halt Booked := hs.foldlM undergo k

/-- Every endpoint and every segment keeps its bounds. -/
structure Bounded (o : Options) (k : Booked) : Prop where
  fits : ∀ i, (k.net.pcb i).Fits o
  /-- Data that a step brings is a segment of the peer, from the front of what the peer holds. -/
  brought : ∀ r j text, k.net.next = some r → r.value = (j, .event (.recv text)) →
    ∃ i, k.net.segment? = some (i, text.length) ∧ (k.net.pcb i).peer = some j ∧
      (k.net.pcb i).unsent.toList = text ++ (r.net.pcb i).unsent.toList
  size : ∀ i len, k.net.segment? = some (i, len) → 1 ≤ len ∧ len ≤ o.mss
  /-- No mark of the plan lies within a segment. -/
  uncrossed : ∀ i len m, k.net.segment? = some (i, len) → (k.book i).Mark m →
    ¬ ((k.book i).sent < m ∧ m < (k.book i).sent + len)
  /-- What is taken from the first planned size is there. -/
  planned : ∀ i len, k.net.segment? = some (i, len) → ∀ f ∈ (k.net.pcb i).splitPlan.head?, len ≤ f
  /-- A write is taken when the write half is open and there is room for all of it; else nothing changes. -/
  write : ∀ i data flags, ∃ r s, k.net.perform i (.write data flags) = .ok r ∧ k.net.perform i .sndbuf = .ok s ∧
    (r.value = .ok () ↔ (k.net.pcb i).IsOpen ∧ data.length ≤ s.value) ∧ (∀ f, r.value = .error f → r.net = k.net)

end Booked

variable {o : Options} {n' : Net} {len m : Nat} {p : Pcb} {b : Book}

/-! ## What is left of a plan -/

namespace Book

variable {plan sizes : List Nat} {k : Nat}

/-- Sizes of zero end no segment. -/
theorem sum_take_filter (sizes : List Nat) : ∀ k, ∃ k', (sizes.take k).sum = ((sizes.filter (0 < ·)).take k').sum := by
  induction sizes with
  | nil => exact fun k => ⟨0, by simp⟩
  | cons f rest ih =>
    intro k
    cases k with
    | zero => exact ⟨0, rfl⟩
    | succ k =>
      obtain ⟨k', hk⟩ := ih k
      by_cases hf : 0 < f
      · exact ⟨k' + 1, by simp [hf, hk]⟩
      · exact ⟨k', by simp [hk, Nat.eq_zero_of_not_pos hf]⟩

theorem sum_filter (sizes : List Nat) : (sizes.filter (0 < ·)).sum = sizes.sum := by
  induction sizes with
  | nil => rfl
  | cons f rest ih =>
    by_cases hf : 0 < f
    · simp [hf, ih]
    · simp [ih, Nat.eq_zero_of_not_pos hf]

theorem Keeps.new : ({} : Book).Keeps [] := ⟨Nat.le_refl _, fun h => absurd rfl h, fun m ⟨k, hm⟩ => .inl (by simp [hm])⟩

/-- A segment that ends by the first of what is left crosses no mark. -/
theorem Keeps.uncrossed (h : b.Keeps plan) (hlen : ∀ f ∈ plan.head?, len ≤ f) (hm : b.Mark m) :
    ¬ (b.sent < m ∧ m < b.sent + len) := by
  rintro ⟨hlt, hgt⟩
  rcases h.marks m hm with hle | ⟨k, rfl⟩
  · omega
  · cases plan with
    | nil => simp at hlt
    | cons f rest =>
      have := hlen f (by simp)
      cases k with
      | zero => simp at hlt
      | succ k =>
        rw [List.take_succ_cons, List.sum_cons] at hgt
        omega

/-- A segment is sent. -/
theorem Keeps.send (h : b.Keeps plan) (hlen : ∀ f ∈ plan.head?, len ≤ f) :
    ({ b with sent := b.sent + len } : Book).Keeps (Net.planAfter len plan) := by
  have hbase := h.base
  cases plan with
  | nil =>
    refine ⟨Nat.le_trans hbase (Nat.le_add_right _ _), fun hn => absurd rfl hn, fun m hm => .inl ?_⟩
    show m ≤ b.sent + len
    rcases h.marks m hm with hle | ⟨k, rfl⟩
    · omega
    · simp
  | cons f rest =>
    have hf := hlen f (by simp)
    have hends := h.ends (List.cons_ne_nil f rest)
    rw [List.sum_cons] at hends
    refine ⟨Nat.le_trans hbase (Nat.le_add_right _ _), fun _ => ?_, fun m hm => ?_⟩
    · show b.base + b.sizes.sum = b.sent + len + (if f - len = 0 then rest else (f - len) :: rest).sum
      split
      · omega
      · rw [List.sum_cons]
        omega
    · show m ≤ b.sent + len ∨ ∃ k, m = b.sent + len + ((if f - len = 0 then rest else (f - len) :: rest).take k).sum
      rcases h.marks m hm with hle | ⟨k, rfl⟩
      · omega
      · cases k with
        | zero =>
          left
          simp
        | succ k =>
          right
          rw [List.take_succ_cons, List.sum_cons]
          split
          · exact ⟨k, by omega⟩
          · exact ⟨k + 1, by rw [List.take_succ_cons, List.sum_cons]; omega⟩

/-- Sizes are added to what is left. -/
theorem Keeps.extend (h : b.Keeps plan) (sizes : List Nat) :
    (b.extend plan sizes).Keeps (plan ++ sizes.filter (0 < ·)) := by
  unfold Book.extend
  split
  · rename_i hn
    rw [hn, List.nil_append]
    refine ⟨Nat.le_refl _, fun _ => by rw [sum_filter], fun m ⟨k, hm⟩ => .inr ?_⟩
    obtain ⟨k', hk⟩ := sum_take_filter sizes k
    exact ⟨k', hk ▸ hm⟩
  · rename_i hn
    have hends := h.ends hn
    refine ⟨h.base, fun _ => ?_, fun m ⟨k, hm⟩ => ?_⟩
    · show b.base + (b.sizes ++ sizes).sum = b.sent + _
      rw [List.sum_append, List.sum_append, sum_filter]
      omega
    · change m = b.base + ((b.sizes ++ sizes).take k).sum at hm
      rw [List.take_append, List.sum_append] at hm
      rcases Nat.le_total k b.sizes.length with hk | hk
      · -- a mark of the plan so far
        rw [Nat.sub_eq_zero_of_le hk, List.take_zero, List.sum_nil, Nat.add_zero] at hm
        rcases h.marks m ⟨k, hm⟩ with hle | ⟨k', rfl⟩
        · exact .inl hle
        · refine .inr ⟨min k' plan.length, ?_⟩
          rw [List.take_append_of_le_length (Nat.min_le_right _ _), ← List.take_eq_take_min]
      · -- one of the sizes that are added
        rw [List.take_of_length_le hk] at hm
        obtain ⟨k', hk'⟩ := sum_take_filter sizes (k - b.sizes.length)
        refine .inr ⟨plan.length + k', ?_⟩
        rw [List.take_length_add_append, List.sum_append]
        show m = b.sent + _
        omega

/-- What has lapsed with its endpoint. -/
theorem Keeps.lapse (h : b.Keeps plan) (hp : p.splitPlan = plan ∨ p.splitPlan = [] ∧ p.state = .closed) :
    (b.lapse p).Keeps p.splitPlan := by
  unfold Book.lapse
  split
  · rename_i hc
    rw [hc.2]
    refine ⟨h.base, fun hn => absurd rfl hn, fun m ⟨k, hm⟩ => .inl ?_⟩
    have := h.base
    show m ≤ b.sent
    simpa [hm] using this
  · rename_i hc
    rcases hp with hp | hp
    · rw [hp]
      exact h
    · exact absurd ⟨hp.2, hp.1⟩ hc

end Book

/-! ## Courses -/

namespace Booked

variable {k k' : Booked} {h : Happening} {hs : List Happening}

/-- All endpoints are within their bounds, and all books are kept. -/
structure Kept (o : Options) (k : Booked) : Prop where
  options : k.net.options = o
  fits : ∀ i, (k.net.pcb i).Fits o
  keeps : ∀ i, (k.book i).Keeps (k.net.pcb i).splitPlan

theorem kept_new (o : Options) : Kept o { net := { options := o } } :=
  ⟨rfl, fun _ => Pcb.fits_default, fun _ => Book.Keeps.new⟩

/-- What sends nothing, and plans nothing. -/
theorem Kept.follows (hk : k.Kept o) (hf : k.net.Follows n') (he : ∀ i, k.entry i h = k.book i) :
    Kept o ⟨n', fun i => (k.entry i h).lapse (n'.pcb i)⟩ := by
  refine ⟨hf.options.trans hk.options, fun i => ?_, fun i => ?_⟩
  · exact (hk.options ▸ (hf.pcb i).fits) (hk.fits i)
  · simp only [he]
    exact (hk.keeps i).lapse (hf.pcb i).plan

theorem Kept.step (hk : k.Kept o) {r : Result (Nat × Delivery)} (hr : k.net.next = some r) :
    Kept o ⟨r.net.heed r.value.1 r.value.2, fun i => (k.entry i .step).lapse ((r.net.heed r.value.1 r.value.2).pcb i)⟩ := by
  rcases Net.step_cases hr fun m => hk.options ▸ hk.fits m with ⟨hs, -, hf⟩ | ⟨i, j, len, hs, -, hp, -⟩
  · exact hk.follows hf fun i => by simp [entry, hs]
  · generalize r.net.heed r.value.1 r.value.2 = n' at hp
    refine ⟨hp.options.trans hk.options, fun m => ?_, fun m => ?_⟩
    · have := hp.fits m
      rw [hk.options] at this
      exact this (hk.fits m)
    · simp only [entry, hs]
      split
      · rename_i hm
        subst hm
        exact ((hk.keeps i).send hp.planned).lapse (.inl hp.plan)
      · rename_i hm
        exact (hk.keeps m).lapse (.inl (hp.others m (Ne.symm hm)))

theorem Kept.split (hk : k.Kept o) (id : Handle) (sizes : List Nat) :
    Kept o ⟨(k.net.split id sizes).1, fun i => (k.entry i (.split id sizes)).lapse ((k.net.split id sizes).1.pcb i)⟩ := by
  unfold Net.split Net.updateOwned
  cases hm : k.net.owned? id with
  | none => exact hk.follows (Net.Steady.refl _).follows fun i => by simp [entry, hm]
  | some m =>
    refine ⟨hk.options, fun i => ?_, fun i => ?_⟩
    · exact Net.pcb_update_elim (hk.fits i) fun _ => (hk.fits i).congr rfl rfl rfl
    · simp only [entry, hm, Option.some.injEq]
      split
      · rename_i hi
        subst hi
        refine ((hk.keeps m).extend sizes).lapse (.inl ?_)
        rw [Net.pcb_update_self (Net.owned?_lt hm)]
      · rename_i hi
        refine (hk.keeps i).lapse (.inl ?_)
        rw [Net.pcb_update_of_ne (Ne.symm hi)]

/-- **Whatever happens once.** -/
theorem Kept.undergo (hk : k.Kept o) (hu : k.undergo h = .ok k') : k'.Kept o := by
  unfold Booked.undergo at hu
  cases hn : k.net.undergo h with
  | error e => rw [hn] at hu; cases hu
  | ok n' =>
    rw [hn] at hu
    cases hu
    cases h with
    | add =>
      cases hn
      exact hk.follows (Net.steady_add Pcb.fits_default rfl).follows fun _ => rfl
    | perform i op =>
      obtain ⟨res, hr, rfl⟩ := Net.undergo_perform.1 hn
      exact hk.follows (Net.perform_follows hr) fun _ => rfl
    | step =>
      unfold Net.undergo at hn
      cases hr : k.net.next with
      | none =>
        rw [hr] at hn
        cases hn
        exact hk.follows (Net.Steady.refl _).follows fun i => by simp [entry, Net.segment?, hr]
      | some r =>
        rw [hr] at hn
        cases hn
        exact hk.step hr
    | tick =>
      cases hn
      exact hk.follows (Net.steady_tick _).follows fun _ => rfl
    | split id sizes =>
      cases hn
      exact hk.split id sizes
    | failCloses id count =>
      cases hn
      exact hk.follows (Net.failCloses_steady _ id count).follows fun _ => rfl

theorem Kept.run (hk : k.Kept o) (hr : k.run hs = .ok k') : k'.Kept o := by
  induction hs generalizing k with
  | nil =>
    cases hr
    exact hk
  | cons h hs ih =>
    unfold Booked.run at hr
    rw [List.foldlM_cons] at hr
    cases hu : k.undergo h with
    | error e => rw [hu] at hr; cases hr
    | ok k₁ =>
      rw [hu] at hr
      exact ih (hk.undergo hu) hr

/-- Books can be kept of any course. -/
theorem run_of_course {n : Net} (book : Nat → Book) (h : n.course hs = .ok n') :
    ∃ k, run ⟨n, book⟩ hs = .ok k ∧ k.net = n' := by
  induction hs generalizing n book with
  | nil =>
    cases h
    exact ⟨_, rfl, rfl⟩
  | cons x hs ih =>
    obtain ⟨m, hx, hm⟩ := Net.course_cons.1 h
    obtain ⟨k, hk, hnet⟩ := ih (fun i => (entry ⟨n, book⟩ i x).lapse (m.pcb i)) hm
    refine ⟨k, ?_, hnet⟩
    unfold run Booked.undergo at hk ⊢
    rw [List.foldlM_cons, hx]
    exact hk

theorem Kept.bounded (hk : k.Kept o) : k.Bounded o := by
  have hfits : ∀ m, (k.net.pcb m).Fits k.net.options := hk.options ▸ hk.fits
  -- what is known of the next segment
  have hsegment : ∀ i len, k.net.segment? = some (i, len) →
      1 ≤ len ∧ len ≤ o.mss ∧ ∀ f ∈ (k.net.pcb i).splitPlan.head?, len ≤ f := by
    intro i len hs
    cases hr : k.net.next with
    | none => simp [Net.segment?, hr] at hs
    | some r =>
      rcases Net.step_cases hr hfits with ⟨hn, -⟩ | ⟨i', j, len', hs', -, hp, -⟩
      · simp [hn] at hs
      · obtain ⟨rfl, rfl⟩ : i' = i ∧ len' = len := by simpa [hs'] using hs
        exact ⟨hp.pos, hk.options ▸ hp.mss, hp.planned⟩
  refine ⟨hk.fits, fun r j text hr hv => ?_, fun i len hs => ?_, fun i len m hs hm => ?_, fun i len hs => ?_,
    fun i data flags => ?_⟩
  · rcases Net.step_cases hr hfits with ⟨-, hn, -⟩ | ⟨i, j', len, hs, hp, -, hv' | ⟨text', hv', hlen, htext⟩⟩
    · exact absurd hv (hn j text)
    · simp [hv'] at hv
    · obtain ⟨rfl, rfl⟩ : j' = j ∧ text' = text := by simpa [hv'] using hv
      exact ⟨i, hlen ▸ hs, hp, htext⟩
  · obtain ⟨hpos, hmss, -⟩ := hsegment i len hs
    exact ⟨hpos, hmss⟩
  · exact (hk.keeps i).uncrossed (hsegment i len hs).2.2 hm
  · exact (hsegment i len hs).2.2
  · exact ⟨_, _, Net.perform_write _ i data flags, rfl, Net.write_ok_iff _ i data, fun f => Net.write_error⟩

/-- **The bounds of flow control.** Whatever happens to a net that begins without endpoints: what an endpoint has
acknowledged it has received, and no more is left to acknowledge than its window; it holds no more than its buffer; every
segment fits the segment size, is not empty, and ends no later than the plan of its sender wants it to; and a write is
taken exactly when the write half is open and there is room for all of it, and changes nothing when it is refused. -/
theorem run_bounded (h : run { net := { options := o } } hs = .ok k) : k.Bounded o :=
  ((kept_new o).run h).bounded

/-- Options that leave little room. -/
def narrow : Options := { mss := 4, sndbuf := 8, window := 3 }

/-- Two endpoints meet, and one of them writes under a plan of sizes. -/
def planned : List Happening :=
  [.add, .perform 0 (.bind Net.doorway), .perform 0 (.listen 1), .perform 0 (.attach ⟨0, 0⟩), .add, .perform 1 (.attach ⟨1, 0⟩),
    .perform 1 (.connect Net.doorway), .step, .step, .perform 2 (.attach ⟨2, 0⟩), .split ⟨1, 0⟩ [2, 0, 3],
    .perform 1 (.write [1, 2, 3, 4, 5, 6] ⟨0⟩), .step, .step]

/-- Two bytes were sent as planned. Of the next three the window leaves room for one. -/
theorem run_bounded_narrow :
    ∃ k, run { net := { options := narrow } } planned = .ok k ∧ k.Bounded narrow ∧ k.net.segment? = some (1, 1) ∧
      (k.book 1).sent = 2 ∧ (k.book 1).Mark 5 := by
  have hend : (run { net := { options := narrow } } planned).toOption.map (fun k =>
      (k.net.segment?, (k.book 1).sent, (k.book 1).base, (k.book 1).sizes)) = some (some (1, 1), 2, 0, [2, 0, 3]) := by
    decide +kernel
  cases h : run { net := { options := narrow } } planned with
  | error e => simp [h, Except.toOption] at hend
  | ok k =>
    obtain ⟨hs, hsent, hbase, hsizes⟩ : _ ∧ _ ∧ _ ∧ _ := by simpa [h, Except.toOption] using hend
    exact ⟨k, rfl, run_bounded h, hs, hsent, 3, by rw [hbase, hsizes]; rfl⟩

end Booked

end Conduit.Loopback
