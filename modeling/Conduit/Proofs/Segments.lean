import Conduit.Segments

/-!
# Segment chains as byte lists

Every operation of a chain does to the bytes in order (`Segments.toList`) what its name says, and keeps the chain
well formed.

* `toList_push`, `toList_advance`, `peek_eq`: the operations through the view.
* `peekInto_eq`, `readInto_eq`, `toBytes_eq`: what is copied out.
* `WellFormed.size_advance`: the cached size follows.
-/

namespace Conduit.Segments

variable {c : Segments} {s : Bytes} {n : Nat}

@[simp] theorem toList_empty : empty.toList = [] := rfl

@[simp] theorem size_empty : empty.size = 0 := rfl

theorem wellFormed_empty : empty.WellFormed := ⟨rfl, by simp [empty]⟩

theorem wellFormed_default : ({} : Segments).WellFormed := wellFormed_empty

@[simp] theorem toList_push : (c.push s).toList = c.toList ++ s := by
  unfold push toList
  split
  · rename_i h
    simp [List.isEmpty_iff.1 h]
  · simp

@[simp] theorem size_push : (c.push s).size = c.size + s.length := by
  unfold push
  split
  · rename_i h
    simp [List.isEmpty_iff.1 h]
  · rfl

theorem WellFormed.push (h : c.WellFormed) : (c.push s).WellFormed := by
  refine ⟨by rw [size_push, toList_push, List.length_append, h.size_eq], ?_⟩
  intro x hx
  unfold Segments.push at hx
  split at hx
  · exact h.nonempty x hx
  · rename_i hs
    rcases List.mem_append.1 hx with hx | hx
    · exact h.nonempty x hx
    · rw [List.mem_singleton.1 hx]
      simpa using hs

theorem flatten_dropFront (l : List Bytes) : ∀ n, (dropFront l n).flatten = l.flatten.drop n := by
  induction l with
  | nil => intro n; simp [dropFront]
  | cons x rest ih =>
    intro n
    unfold dropFront
    split
    · rename_i h0
      simp [h0]
    · split
      · rename_i hle
        rw [ih, List.flatten_cons, List.drop_append, List.drop_eq_nil_of_le hle, List.nil_append]
      · rename_i hlt
        rw [List.flatten_cons, List.flatten_cons, List.drop_append_of_le_length (by omega)]

theorem takeFront_eq (l : List Bytes) : ∀ n, takeFront l n = l.flatten.take n := by
  induction l with
  | nil => intro n; simp [takeFront]
  | cons x rest ih =>
    intro n
    unfold takeFront
    split
    · rename_i h0
      simp [h0]
    · split
      · rename_i hle
        rw [ih, List.flatten_cons, List.take_append, List.take_of_length_le hle]
      · rename_i hlt
        rw [List.flatten_cons, List.take_append_of_le_length (by omega)]

theorem nonempty_dropFront {l : List Bytes} (h : ∀ x ∈ l, x ≠ []) : ∀ n, ∀ x ∈ dropFront l n, x ≠ [] := by
  induction l with
  | nil => intro n x hx; simp [dropFront] at hx
  | cons y rest ih =>
    intro n x hx
    unfold dropFront at hx
    split at hx
    · exact h x hx
    · split at hx
      · exact ih (fun z hz => h z (by simp [hz])) _ x hx
      · rename_i hlt
        rcases List.mem_cons.1 hx with hx | hx
        · rw [hx]
          intro hnil
          have := congrArg List.length hnil
          simp only [List.length_drop, List.length_nil] at this
          omega
        · exact h x (by simp [hx])

/-- What is peeked is the front of the chain. -/
theorem peek_eq : c.peek n = c.toList.take n := takeFront_eq c.segs n

theorem toList_advance (h : c.WellFormed) : (c.advance n).toList = c.toList.drop n := by
  have hs := h.size_eq
  show (dropFront c.segs (min n c.size)).flatten = c.toList.drop n
  rw [flatten_dropFront]
  show c.toList.drop (min n c.size) = c.toList.drop n
  rcases Nat.le_total n c.size with hn | hn
  · rw [Nat.min_eq_left hn]
  · rw [Nat.min_eq_right hn, List.drop_eq_nil_of_le (by omega), List.drop_eq_nil_of_le (by omega)]

theorem size_advance : (c.advance n).size = c.size - n := by
  show c.size - min n c.size = c.size - n
  omega

theorem WellFormed.advance (h : c.WellFormed) : (c.advance n).WellFormed := by
  refine ⟨?_, nonempty_dropFront h.nonempty _⟩
  rw [size_advance, toList_advance h, List.length_drop, h.size_eq]

/-- There is one chain that holds nothing. -/
theorem WellFormed.eq_empty (h : c.WellFormed) (hs : c.size = 0) : c = .empty := by
  have hnil : c.segs.flatten = [] := List.length_eq_zero_iff.1 (h.size_eq.symm.trans hs)
  have hsegs : c.segs = [] := by
    refine List.eq_nil_iff_forall_not_mem.2 fun s hmem => ?_
    exact h.nonempty s hmem (List.flatten_eq_nil_iff.1 hnil s hmem)
  obtain ⟨segs, size⟩ := c
  obtain rfl : segs = [] := hsegs
  obtain rfl : size = 0 := hs
  rfl

/-- Dropping all that is held empties the chain. -/
theorem WellFormed.advance_size (h : c.WellFormed) : c.advance c.size = .empty :=
  h.advance.eq_empty (by rw [size_advance, Nat.sub_self])

theorem WellFormed.isEmpty_iff (h : c.WellFormed) : c.isEmpty = true ↔ c.toList = [] := by
  unfold Segments.isEmpty
  rw [beq_iff_eq, h.size_eq, List.length_eq_zero_iff]

/-- Reading takes the front off. -/
theorem read_eq (h : c.WellFormed) :
    (c.read n).1 = c.toList.take n ∧ (c.read n).2.toList = c.toList.drop n ∧ (c.read n).2.WellFormed := by
  refine ⟨peek_eq, ?_, h.advance⟩
  show (c.advance (c.peek n).length).toList = _
  rw [toList_advance h, peek_eq, List.length_take]
  rcases Nat.le_total n c.toList.length with hn | hn
  · rw [Nat.min_eq_left hn]
  · rw [Nat.min_eq_right hn, List.drop_eq_nil_of_le hn, List.drop_eq_nil_of_le (Nat.le_refl _)]

@[simp] theorem length_overwrite {buffer b : Bytes} {k : Nat} (h : k + b.length ≤ buffer.length) :
    (overwrite buffer k b).length = buffer.length := by
  unfold overwrite
  simp only [List.length_append, List.length_take, List.length_drop]
  omega

theorem take_overwrite {buffer b : Bytes} {k : Nat} (h : k ≤ buffer.length) :
    (overwrite buffer k b).take (k + b.length) = buffer.take k ++ b := by
  have hlen : (buffer.take k ++ b).length = k + b.length := by
    rw [List.length_append, List.length_take, Nat.min_eq_left h]
  unfold overwrite
  rw [← hlen, List.take_left]

theorem drop_overwrite {buffer b : Bytes} {k m : Nat} (h : k ≤ buffer.length) :
    (overwrite buffer k b).drop (k + b.length + m) = buffer.drop (k + b.length + m) := by
  have hlen : (buffer.take k ++ b).length = k + b.length := by
    rw [List.length_append, List.length_take, Nat.min_eq_left h]
  unfold overwrite
  rw [← List.drop_drop, ← hlen, List.drop_left, hlen, List.drop_drop]

/-- The copying takes the segments for one run of bytes: it goes on behind what is written until the buffer or the bytes end. -/
theorem copyFrom_eq (segs : List Bytes) : ∀ (buffer : Bytes) (k : Nat), k ≤ buffer.length →
    copyFrom segs buffer k =
      (k + min (buffer.length - k) segs.flatten.length,
        buffer.take k ++ segs.flatten.take (buffer.length - k) ++ buffer.drop (k + segs.flatten.length)) := by
  induction segs with
  | nil =>
    intro buffer k _
    simp [copyFrom]
  | cons s rest ih =>
    intro buffer k hk
    rw [List.flatten_cons, List.length_append]
    by_cases hfull : k = buffer.length
    · rw [copyFrom, if_pos hfull]
      have hdrop : buffer.drop (k + (s.length + rest.flatten.length)) = [] := List.drop_eq_nil_of_le (by omega)
      rw [hdrop, hfull, Nat.sub_self, Nat.zero_min, List.take_length, List.take_zero, List.append_nil, List.append_nil, Nat.add_zero]
    · rw [copyFrom, if_neg hfull]
      show copyFrom rest (overwrite buffer k (s.take (min s.length (buffer.length - k))))
        (k + min s.length (buffer.length - k)) = _
      rcases Nat.le_total s.length (buffer.length - k) with hs | hs
      · -- the whole segment fits
        have hwhole : s.take (min s.length (buffer.length - k)) = s := by rw [Nat.min_eq_left hs, List.take_length]
        have hlen : (overwrite buffer k s).length = buffer.length := length_overwrite (by omega)
        rw [hwhole, Nat.min_eq_left hs, ih _ _ (by omega), hlen, take_overwrite hk, drop_overwrite hk,
          List.take_append, List.take_of_length_le hs, Nat.sub_sub]
        refine Prod.ext ?_ ?_
        · show k + s.length + min (buffer.length - (k + s.length)) rest.flatten.length = _
          omega
        · simp only [List.append_assoc, Nat.add_assoc]
      · -- the segment fills the buffer, and the next turn ends the copying
        have hlen : (overwrite buffer k (s.take (buffer.length - k))).length = buffer.length :=
          length_overwrite (by rw [List.length_take]; omega)
        have hsum : k + min s.length (buffer.length - k) = buffer.length := by omega
        have hfirst : (overwrite buffer k (s.take (buffer.length - k))).take buffer.length =
            buffer.take k ++ s.take (buffer.length - k) := by
          have := take_overwrite (b := s.take (buffer.length - k)) hk
          rwa [List.length_take, Nat.min_comm, hsum] at this
        have hrest : buffer.drop (k + (s.length + rest.flatten.length)) = [] := List.drop_eq_nil_of_le (by omega)
        rw [hsum, Nat.min_eq_right hs, ih _ _ (by omega), hlen, Nat.sub_self, List.take_zero, hfirst, hrest,
          List.take_append_of_le_length hs, List.drop_eq_nil_of_le (by omega)]
        refine Prod.ext ?_ ?_
        · show buffer.length + min 0 rest.flatten.length = _
          omega
        · simp only [List.append_nil]

/-- Copying out writes the front of the chain over the front of the buffer. -/
theorem peekInto_eq (h : c.WellFormed) (buffer : Bytes) :
    c.peekInto buffer = (min buffer.length c.size, c.toList.take buffer.length ++ buffer.drop c.size) := by
  show copyFrom c.segs buffer 0 = _
  rw [copyFrom_eq _ _ _ (Nat.zero_le _), h.size_eq]
  simp only [Nat.zero_add, Nat.sub_zero, List.take_zero, List.nil_append]
  rfl

/-- Reading copies out and drops what was copied. -/
theorem readInto_eq (h : c.WellFormed) (buffer : Bytes) :
    c.readInto buffer =
      (min buffer.length c.size, c.toList.take buffer.length ++ buffer.drop c.size, c.advance (min buffer.length c.size)) := by
  unfold readInto
  rw [peekInto_eq h]

/-- One run of bytes is the segments put together. -/
theorem toBytes_eq : c.toBytes = c.toList := by
  unfold toBytes toList
  split
  · rename_i hnil
    rw [hnil, List.flatten_nil]
  · rename_i s hone
    rw [hone, List.flatten_singleton]
  · show c.segs.foldl (fun joined s => joined ++ id s) [] = c.segs.flatten
    rw [List.foldl_append_eq_append, List.map_id, List.nil_append]

end Conduit.Segments
