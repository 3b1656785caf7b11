/-!
# Segment chains

A byte queue kept as the segments it was filled with, so that a partial read only shortens the first segment.

* `Segments.toList` is the view: the bytes in order.
* `Segments.size` is kept beside the segments, and empty segments are never stored (`Segments.WellFormed`).
-/

namespace Conduit

/-- A run of bytes. -/
abbrev Bytes := List UInt8

/-- A queue of bytes in segments; `size` counts the bytes. -/
structure Segments where
  segs : List Bytes := []
  size : Nat := 0
  deriving DecidableEq, Repr, Inhabited

namespace Segments

/-- The chain that holds nothing. -/
def empty : Segments := {}

/-- All bytes in order. -/
def toList (c : Segments) : Bytes := c.segs.flatten

/-- The size counts the bytes, and no stored segment is empty. -/
structure WellFormed (c : Segments) : Prop where
  size_eq : c.size = c.toList.length
  nonempty : ∀ s ∈ c.segs, s ≠ []

/-- Appends a segment; an empty one leaves the chain as it is. -/
def push (c : Segments) (s : Bytes) : Segments :=
  if s.isEmpty then c else ⟨c.segs ++ [s], c.size + s.length⟩

/-- How many segments are stored. -/
def count (c : Segments) : Nat := c.segs.length

/-- Whether no byte is held. -/
def isEmpty (c : Segments) : Bool := c.size == 0

/-- Drops `n` bytes from the front of a list of segments. -/
def dropFront : List Bytes → Nat → List Bytes
  | [], _ => []
  | s :: rest, n =>
    if n = 0 then s :: rest
    else if s.length ≤ n then dropFront rest (n - s.length)
    else s.drop n :: rest

/-- The first `n` bytes of a list of segments, or all of them. -/
def takeFront : List Bytes → Nat → Bytes
  | [], _ => []
  | s :: rest, n =>
    if n = 0 then []
    else if s.length ≤ n then s ++ takeFront rest (n - s.length)
    else s.take n

/-- Drops the first `n` bytes; dropping more than is held empties the chain. -/
def advance (c : Segments) (n : Nat) : Segments :=
  let k := min n c.size
  ⟨dropFront c.segs k, c.size - k⟩

/-- The first bytes, at most `n`, which stay in the chain. -/
def peek (c : Segments) (n : Nat) : Bytes := takeFront c.segs n

/-- The first bytes, at most `n`, and the chain without them. -/
def read (c : Segments) (n : Nat) : Bytes × Segments :=
  let b := c.peek n
  (b, c.advance b.length)

/-- Drops everything. -/
def clear (_ : Segments) : Segments := ⟨[], 0⟩

/-- Writes bytes over a buffer from position `k` on and leaves the rest of it as it was. -/
def overwrite (buffer : Bytes) (k : Nat) (b : Bytes) : Bytes := buffer.take k ++ b ++ buffer.drop (k + b.length)

/-- Copies segments in turn into a buffer of which the first `k` bytes are written, until it is full: how many bytes are written
then, and the buffer. -/
def copyFrom : List Bytes → Bytes → Nat → Nat × Bytes
  | [], buffer, k => (k, buffer)
  | s :: rest, buffer, k =>
    if k = buffer.length then (k, buffer)
    else
      let take := min s.length (buffer.length - k)
      copyFrom rest (overwrite buffer k (s.take take)) (k + take)

/-- Copies the first bytes into a buffer, as many as it takes: how many, and the buffer. -/
def peekInto (c : Segments) (buffer : Bytes) : Nat × Bytes := copyFrom c.segs buffer 0

/-- Moves the first bytes into a buffer, as many as it takes: how many, the buffer, and the chain without them. -/
def readInto (c : Segments) (buffer : Bytes) : Nat × Bytes × Segments :=
  let (copied, buffer) := c.peekInto buffer
  (copied, buffer, c.advance copied)

/-- The chain as one run of bytes. A single segment is handed out as it is, several are joined. -/
def toBytes (c : Segments) : Bytes :=
  match c.segs with
  | [] => []
  | [s] => s
  | segs => segs.foldl (fun joined s => joined ++ s) []

/-- The segments in order. -/
def iter (c : Segments) : List Bytes := c.segs

end Segments

end Conduit
