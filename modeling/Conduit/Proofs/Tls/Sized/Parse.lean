import Conduit.Tls.Sized.Wire

/-!
# A stream as records

A stream of ciphertext read from the front, as far as it goes: a header of five bytes says how long a record is.

* `Wire.next?`: the record at the front, if it is there as a whole.
* `Wire.records`: all of them, one after the other.
* `Wire.prefix_records`, `Wire.records_append`: records that make up the beginning of a stream are its first records.
-/

namespace Conduit.Tls.Sized.Wire

/-- How many bytes a record has, as its header says: five bytes, of which the last two are the length of the body. -/
def announced? : Bytes → Option Nat
  | _ :: _ :: _ :: hi :: lo :: _ => some (5 + hi.toNat * 256 + lo.toNat)
  | _ => none

/-- The record at the front of a stream, and what comes after it, if the record is there as a whole. -/
def next? (c : Bytes) : Option (Bytes × Bytes) :=
  (announced? c).bind fun n => if n ≤ c.length then some (c.take n, c.drop n) else none

/-- Cuts whole records off the front of a stream, at most `k`. -/
def recordsIn : (k : Nat) → Bytes → List Bytes
  | 0, _ => []
  | k + 1, c =>
    match next? c with
    | none => []
    | some (r, rest) => r :: recordsIn k rest

/-- All whole records at the front of a stream, one after the other. -/
def records (c : Bytes) : List Bytes := recordsIn c.length c

/-- A record as its own header describes it. -/
def IsRecord (r : Bytes) : Prop := announced? r = some r.length

theorem announced_ge {c : Bytes} {n : Nat} (h : announced? c = some n) : 5 ≤ n ∧ 5 ≤ c.length := by
  match c, h with
  | _ :: _ :: _ :: hi :: lo :: rest, h =>
    cases h
    simp only [List.length_cons]
    omega

theorem announced_append {c : Bytes} {n : Nat} (h : announced? c = some n) (x : Bytes) :
    announced? (c ++ x) = some n := by
  match c, h with
  | _ :: _ :: _ :: _ :: _ :: _, h => exact h

theorem announced_take {c : Bytes} {n k : Nat} (h : announced? c = some n) (hk : 5 ≤ k) :
    announced? (c.take k) = some n := by
  obtain ⟨j, rfl⟩ := Nat.exists_eq_add_of_le' hk
  match c, h with
  | _ :: _ :: _ :: _ :: _ :: _, h => exact h

theorem next_whole {c : Bytes} {n : Nat} (h : announced? c = some n) (hle : n ≤ c.length) :
    next? c = some (c.take n, c.drop n) := by
  rw [next?, h, Option.bind_some, if_pos hle]

theorem next_short {c : Bytes} {n : Nat} (h : announced? c = some n) (hlt : c.length < n) : next? c = none := by
  rw [next?, h, Option.bind_some, if_neg (Nat.not_le.2 hlt)]

theorem next_append {r : Bytes} (h : IsRecord r) (c : Bytes) : next? (r ++ c) = some (r, c) := by
  unfold next?
  rw [announced_append h]
  simp

theorem next_eq_some {c r rest : Bytes} (h : next? c = some (r, rest)) : IsRecord r ∧ c = r ++ rest := by
  unfold next? at h
  obtain ⟨n, hn, h⟩ := Option.bind_eq_some_iff.1 h
  split at h
  · rename_i hle
    cases h
    refine ⟨?_, (List.take_append_drop n c).symm⟩
    rw [IsRecord, announced_take hn (announced_ge hn).1, List.length_take, Nat.min_eq_left hle]
  · cases h

theorem recordsIn_append {rs : List Bytes} (h : ∀ r ∈ rs, IsRecord r) (c : Bytes) :
    ∀ k, rs.flatten.length ≤ k → recordsIn k (rs.flatten ++ c) = rs ++ recordsIn (k - rs.length) c := by
  induction rs with
  | nil => exact fun _ _ => rfl
  | cons r rs ih =>
    intro k hk
    have hr := h r (.head _)
    have h5 := (announced_ge hr).1
    simp only [List.flatten_cons, List.length_append] at hk
    obtain ⟨k, rfl⟩ := Nat.exists_eq_add_of_le' (show 1 ≤ k by omega)
    rw [List.flatten_cons, List.append_assoc, recordsIn, next_append hr]
    simp only [List.length_cons, Nat.add_sub_add_right, List.cons_append]
    rw [ih (fun x hx => h x (.tail _ hx)) k (by omega)]

/-- Whole records that make up the beginning of a stream are the first of its records. -/
theorem prefix_records {rs : List Bytes} (h : ∀ r ∈ rs, IsRecord r) (c : Bytes) : rs <+: records (rs.flatten ++ c) := by
  refine ⟨_, (recordsIn_append h c _ ?_).symm⟩
  simp

/-- The record at the front of a stream is too long. -/
def Oversized (c : Bytes) : Prop := ∃ n, announced? c = some n ∧ maxRecord < n

theorem not_oversized {c : Bytes} {n : Nat} (h : announced? c = some n) (hle : n ≤ maxRecord) : ¬ Oversized c := by
  rintro ⟨k, hk, hlt⟩
  rw [h] at hk
  cases hk
  omega

/-- The header says it all. -/
theorem oversized_take {c : Bytes} : Oversized (c.take 5) ↔ Oversized c := by
  constructor
  · rintro ⟨n, hn, hlt⟩
    refine ⟨n, ?_, hlt⟩
    rw [← List.take_append_drop 5 c]
    exact announced_append hn _
  · rintro ⟨n, hn, hlt⟩
    exact ⟨n, announced_take hn (Nat.le_refl 5), hlt⟩

theorem next_not_oversized {c r rest : Bytes} (h : next? c = some (r, rest)) (hs : r.length ≤ maxRecord) :
    ¬ Oversized c := by
  obtain ⟨hr, rfl⟩ := next_eq_some h
  exact not_oversized (announced_append hr rest) hs

end Conduit.Tls.Sized.Wire
