import Conduit.Segments

/-!
# Scripts for segment chains

Steps on one chain, with a second one beside it.
-/

namespace Conduit.Scenario

/-- A step on a chain. -/
inductive ChainStep
  | push (data : Bytes)
  | peek (n : Nat)
  | read (n : Nat)
  | advance (n : Nat)
  | toBytes
  | iter
  | clear
  /-- The second chain becomes a copy. -/
  | clone
  | swap
  | unknown

/-- The answer of a step. -/
inductive ChainAnswer
  | none
  /-- How many bytes were written, and the whole buffer. -/
  | filled (count : Nat) (buffer : Bytes)
  | bytes (b : Bytes)
  | pieces (ps : List Bytes)
  | missing

/-- The answer of a step, and the chain afterwards. -/
structure ChainReport where
  answer : ChainAnswer
  chain : Segments

/-- What a buffer of `n` bytes holds before it is written to. -/
def untouched (n : Nat) : Bytes := List.replicate n 0xEE

/-- A step on a chain and a second one. -/
def chainStep (c d : Segments) : ChainStep → ChainAnswer × Segments × Segments
  | .push data => (.none, c.push data, d)
  | .peek n =>
    let (copied, buffer) := c.peekInto (untouched n)
    (.filled copied buffer, c, d)
  | .read n =>
    let (copied, buffer, c) := c.readInto (untouched n)
    (.filled copied buffer, c, d)
  | .advance n => (.none, c.advance n, d)
  | .toBytes => (.bytes c.toBytes, c, d)
  | .iter => (.pieces c.iter, c, d)
  | .clear => (.none, c.clear, d)
  | .clone => (.none, c, c)
  | .swap => (.none, d, c)
  | .unknown => (.missing, c, d)

/-- Steps in turn. -/
def chainRun (c d : Segments) : List ChainStep → List ChainReport
  | [] => []
  | s :: rest =>
    let (answer, c, d) := chainStep c d s
    ⟨answer, c⟩ :: chainRun c d rest

end Conduit.Scenario
