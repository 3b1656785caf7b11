import Conduit.Proofs.Segments

/-!
# Segment chains are byte queues

The same uses of a segment chain and of a plain list of bytes, with copies taken anywhere in between, give the same replies and
hold the same bytes.

* `Use`, `Reply`: what is done with a queue, and what it answers; a chain (`onChain`) and a list (`onBytes`) do it each their way.
* `Deed`, `deeds`: uses of any of several queues, and copies of them, in turn.
* `onBytes_toList`, `deed_toList`: one use, and one deed, seen through the bytes.
* `chains_are_queues`: any deeds from one empty chain.
-/

namespace Conduit.Segments

/-- What is done with a queue of bytes. -/
inductive Use
  | push (s : Bytes)
  | peekInto (buffer : Bytes)
  | readInto (buffer : Bytes)
  | advance (n : Nat)
  | clear
  | toBytes
  | iter

/-- What a queue answers. -/
inductive Reply
  | done
  /-- How many bytes were written, and the whole buffer. -/
  | filled (count : Nat) (buffer : Bytes)
  | bytes (b : Bytes)
  | pieces (ps : List Bytes)

/-- A reply with its pieces put together: a list of bytes does not know where a segment ended. -/
def Reply.joined : Reply → Reply
  | .pieces ps => .bytes ps.flatten
  | r => r

/-- The uses that leave the queue as it is. -/
def Use.looks : Use → Bool
  | .peekInto _ | .toBytes | .iter => true
  | .push _ | .readInto _ | .advance _ | .clear => false

/-- A use of a chain. -/
def onChain (c : Segments) : Use → Reply × Segments
  | .push s => (.done, c.push s)
  | .peekInto buffer =>
    let (copied, buffer) := c.peekInto buffer
    (.filled copied buffer, c)
  | .readInto buffer =>
    let (copied, buffer, c) := c.readInto buffer
    (.filled copied buffer, c)
  | .advance n => (.done, c.advance n)
  | .clear => (.done, c.clear)
  | .toBytes => (.bytes c.toBytes, c)
  | .iter => (.pieces c.iter, c)

/-- Writes bytes over the front of a buffer. -/
def fill (buffer : Bytes) (b : Bytes) : Bytes := b ++ buffer.drop b.length

/-- The same use of a list of bytes. -/
def onBytes (l : Bytes) : Use → Reply × Bytes
  | .push s => (.done, l ++ s)
  | .peekInto buffer => (.filled (min buffer.length l.length) (fill buffer (l.take buffer.length)), l)
  | .readInto buffer => (.filled (min buffer.length l.length) (fill buffer (l.take buffer.length)), l.drop buffer.length)
  | .advance n => (.done, l.drop n)
  | .clear => (.done, [])
  | .toBytes | .iter => (.bytes l, l)

/-- What is done where there are several queues: one of them is used, or copied to the end. -/
inductive Deed
  | use (i : Nat) (u : Use)
  | clone (i : Nat)

variable {Q : Type} (on : Q → Use → Reply × Q)

/-- A deed; one that names no queue does nothing. -/
def deed (qs : List Q) : Deed → Reply × List Q
  | .use i u =>
    match qs[i]? with
    | some q => ((on q u).1, qs.set i (on q u).2)
    | none => (.done, qs)
  | .clone i =>
    match qs[i]? with
    | some q => (.done, qs ++ [q])
    | none => (.done, qs)

/-- Deeds in turn: the replies, and the queues afterwards. -/
def deeds : List Q → List Deed → List Reply × List Q
  | qs, [] => ([], qs)
  | qs, d :: rest =>
    let (r, qs) := deed on qs d
    let (rs, qs) := deeds qs rest
    (r :: rs, qs)

variable {c : Segments}

/-- Written over the front of the buffer, and not behind it. -/
theorem fill_take (buffer l : Bytes) : fill buffer (l.take buffer.length) = l.take buffer.length ++ buffer.drop l.length := by
  unfold fill
  rw [List.length_take]
  rcases Nat.le_total buffer.length l.length with hl | hl
  · rw [Nat.min_eq_left hl, List.drop_eq_nil_of_le (Nat.le_refl _), List.drop_eq_nil_of_le hl]
  · rw [Nat.min_eq_right hl]

/-- A chain copies out what the list of its bytes does. -/
theorem WellFormed.peekInto_fill (h : c.WellFormed) (buffer : Bytes) :
    c.peekInto buffer = (min buffer.length c.toList.length, fill buffer (c.toList.take buffer.length)) := by
  rw [peekInto_eq h, fill_take, h.size_eq]

/-- Dropping what a buffer took drops as many bytes as it has room for: there may be fewer. -/
theorem WellFormed.toList_advance_min (h : c.WellFormed) (n : Nat) :
    (c.advance (min n c.toList.length)).toList = c.toList.drop n := by
  rw [toList_advance h]
  rcases Nat.le_total n c.toList.length with hl | hl
  · rw [Nat.min_eq_left hl]
  · rw [Nat.min_eq_right hl, List.drop_eq_nil_of_le (Nat.le_refl _), List.drop_eq_nil_of_le hl]

theorem WellFormed.onChain (h : c.WellFormed) (u : Use) : (onChain c u).2.WellFormed := by
  cases u with
  | push s => exact h.push
  | readInto buffer => exact h.advance
  | advance n => exact h.advance
  | clear => exact wellFormed_empty
  | peekInto _ | toBytes | iter => exact h

/-- One use: the list of a chain's bytes gives the reply of the chain, and ends as the list of its bytes. -/
theorem WellFormed.onBytes (h : c.WellFormed) (u : Use) :
    onBytes c.toList u = ((Segments.onChain c u).1.joined, (Segments.onChain c u).2.toList) := by
  cases u with
  | push s =>
    show (Reply.done, c.toList ++ s) = (.done, (c.push s).toList)
    rw [toList_push]
  | peekInto buffer =>
    show _ = (Reply.filled (c.peekInto buffer).1 (c.peekInto buffer).2, c.toList)
    rw [h.peekInto_fill]
    rfl
  | readInto buffer =>
    show _ = (Reply.filled (c.peekInto buffer).1 (c.peekInto buffer).2, (c.advance (c.peekInto buffer).1).toList)
    rw [h.peekInto_fill, h.toList_advance_min]
    rfl
  | advance n =>
    show (Reply.done, c.toList.drop n) = (.done, (c.advance n).toList)
    rw [toList_advance h]
  | clear => rfl
  | toBytes =>
    show (Reply.bytes c.toList, c.toList) = (.bytes c.toBytes, c.toList)
    rw [toBytes_eq]
  | iter => rfl

/-- Looking does not change a chain, not even where its segments end. -/
theorem onChain_looks {u : Use} (h : u.looks = true) : (onChain c u).2 = c := by
  cases u with
  | peekInto _ | toBytes | iter => rfl
  | push _ | readInto _ | advance _ | clear => exact absurd h (by simp [Use.looks])

variable {cs : List Segments}

theorem wellFormed_deed (h : ∀ c ∈ cs, c.WellFormed) (d : Deed) : ∀ c ∈ (deed onChain cs d).2, c.WellFormed := by
  cases d with
  | use i u =>
    simp only [deed]
    split
    · rename_i c hget
      intro x hx
      rcases List.mem_or_eq_of_mem_set hx with hx | rfl
      · exact h x hx
      · exact (h c (List.mem_of_getElem? hget)).onChain u
    · exact h
  | clone i =>
    simp only [deed]
    split
    · rename_i c hget
      intro x hx
      rcases List.mem_append.1 hx with hx | hx
      · exact h x hx
      · rw [List.mem_singleton.1 hx]
        exact h c (List.mem_of_getElem? hget)
    · exact h

/-- One deed: the lists of the chains' bytes give the same reply and end as the lists of their bytes. -/
theorem deed_toList (h : ∀ c ∈ cs, c.WellFormed) (d : Deed) :
    deed onBytes (cs.map toList) d = ((deed onChain cs d).1.joined, (deed onChain cs d).2.map toList) := by
  cases d with
  | use i u =>
    simp only [deed, List.getElem?_map]
    rcases hget : cs[i]? with _ | c
    · rfl
    · have huse := (h c (List.mem_of_getElem? hget)).onBytes u
      show ((onBytes c.toList u).1, (cs.map toList).set i (onBytes c.toList u).2) = _
      rw [huse, ← List.map_set]
  | clone i =>
    simp only [deed, List.getElem?_map]
    rcases hget : cs[i]? with _ | c
    · rfl
    · show (Reply.done, cs.map toList ++ [c.toList]) = (.done, (cs ++ [c]).map toList)
      rw [List.map_append, List.map_singleton]

theorem wellFormed_deeds (ds : List Deed) : ∀ {cs : List Segments}, (∀ c ∈ cs, c.WellFormed) →
    ∀ c ∈ (deeds onChain cs ds).2, c.WellFormed := by
  induction ds with
  | nil =>
    intro cs h
    exact h
  | cons d rest ih =>
    intro cs h
    exact ih (wellFormed_deed h d)

/-- Deeds in turn. -/
theorem deeds_toList (ds : List Deed) : ∀ {cs : List Segments}, (∀ c ∈ cs, c.WellFormed) →
    deeds onBytes (cs.map toList) ds = ((deeds onChain cs ds).1.map Reply.joined, (deeds onChain cs ds).2.map toList) := by
  induction ds with
  | nil =>
    intro cs _
    rfl
  | cons d rest ih =>
    intro cs h
    show ((deed onBytes (cs.map toList) d).1 :: (deeds onBytes (deed onBytes (cs.map toList) d).2 rest).1,
      (deeds onBytes (deed onBytes (cs.map toList) d).2 rest).2) = _
    rw [deed_toList h d, ih (wellFormed_deed h d)]
    rfl

/-- No segment is stored exactly where no byte is. -/
theorem WellFormed.count_eq_zero_iff (h : c.WellFormed) : c.count = 0 ↔ c.isEmpty = true := by
  constructor
  · intro hcount
    have hsegs : c.segs = [] := List.length_eq_zero_iff.1 hcount
    rw [h.isEmpty_iff]
    unfold toList
    rw [hsegs, List.flatten_nil]
  · intro hempty
    have hsize : c.size = 0 := by simpa [isEmpty] using hempty
    rw [h.eq_empty hsize]
    rfl

/-- Whatever is done with a chain that starts empty, and with copies taken of it at any time, the replies are those of plain lists
of bytes, and each chain holds the bytes of its list in segments of which none is empty. -/
theorem chains_are_queues (ds : List Deed) :
    (deeds onChain [.empty] ds).1.map Reply.joined = (deeds onBytes [[]] ds).1 ∧
      (deeds onChain [.empty] ds).2.map toList = (deeds onBytes [[]] ds).2 ∧
      ∀ c ∈ (deeds onChain [.empty] ds).2,
        c.size = c.toList.length ∧ (∀ s ∈ c.segs, s ≠ []) ∧ (c.count = 0 ↔ c.isEmpty = true) ∧
        (∀ buffer, c.peekInto buffer =
          (min buffer.length c.size, c.toList.take buffer.length ++ buffer.drop (min buffer.length c.size))) ∧
        (∀ buffer, c.readInto buffer =
          (min buffer.length c.size, c.toList.take buffer.length ++ buffer.drop (min buffer.length c.size),
            c.advance (min buffer.length c.size))) ∧
        (∀ n, (c.advance n).toList = c.toList.drop n) ∧
        c.toBytes = c.toList ∧ c.iter.flatten = c.toList ∧ ∀ u : Use, u.looks = true → (onChain c u).2 = c := by
  have hstart : ∀ c ∈ [Segments.empty], c.WellFormed := fun c hc => by
    rw [List.mem_singleton.1 hc]
    exact wellFormed_empty
  have hlists : deeds onBytes [[]] ds = _ := deeds_toList ds hstart
  refine ⟨by rw [hlists], by rw [hlists], fun c hc => ?_⟩
  have hc := wellFormed_deeds ds hstart c hc
  have hfill (buffer : Bytes) : c.peekInto buffer =
      (min buffer.length c.size, c.toList.take buffer.length ++ buffer.drop (min buffer.length c.size)) := by
    rw [hc.peekInto_fill, fill, List.length_take, hc.size_eq]
  refine ⟨hc.size_eq, hc.nonempty, hc.count_eq_zero_iff, hfill, fun buffer => ?_, fun n => toList_advance hc, toBytes_eq, rfl,
    fun _ => onChain_looks⟩
  have hread : c.readInto buffer = ((c.peekInto buffer).1, (c.peekInto buffer).2, c.advance (c.peekInto buffer).1) := rfl
  rw [hread, hfill buffer]

end Conduit.Segments
