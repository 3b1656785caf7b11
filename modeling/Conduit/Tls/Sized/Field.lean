import Conduit.Tls.BigEndian
import Conduit.Tls.Sized.Corruption

/-!
# Fields of messages

Numbers with the highest byte first, and strings and lists with their length in front: how they are read and how they are
written.

* `Reading`: reads from the front of bytes, or says what is wrong with them.
* `Reading.listOf`, `Reading.string`: what stands behind a length.
* `withLength`: writing.
-/

namespace Conduit.Tls.Sized

/-- Reads from the front of bytes. -/
abbrev Reading := StateT Bytes (Except Corruption)

/-- Bytes with their length in front. -/
def withLength (width : Nat) (b : Bytes) : Bytes := bigEndian width b.length ++ b

namespace Reading

/-- Fails. -/
def fail {α : Type} (c : Corruption) : Reading α := throw c

/-- Takes bytes, or fails. -/
def takeOr (c : Corruption) (n : Nat) : Reading Bytes := do
  let b ← get
  let front := b.take n
  if front.length < n then fail c
  else
    set (b.drop n)
    pure front

/-- Takes bytes. -/
def bytes (n : Nat) : Reading Bytes := takeOr .tooShort n

/-- Takes all that is left. -/
def rest : Reading Bytes := do
  let b ← get
  set ([] : Bytes)
  pure b

/-- Whether nothing is left. -/
def atEnd : Reading Bool := do pure (← get).isEmpty

/-- Fails if something is left. -/
def finish (what : String) : Reading Unit := do
  if !(← atEnd) then fail (.trailing what)

/-- A number that has a name. -/
def named (what : String) (width : Nat) : Reading Nat := do pure (numberOf (← takeOr (.missing what) width))

/-- A number of so many bytes. -/
def plain (width : Nat) : Reading Nat := named ("u" ++ toString (width * 8)) width

/-- Reads bytes of their own, and answers what is left of them. -/
def part {α : Type} (body : Bytes) (r : Reading α) : Reading (α × Bytes) :=
  match r.run body with
  | .ok x => pure x
  | .error c => fail c

/-- Reads bytes of their own to their end. -/
def whole {α : Type} (body : Bytes) (what : String) (r : Reading α) : Reading α := do
  let (a, left) ← part body r
  if left.isEmpty then pure a else fail (.trailing what)

/-- Reads items until nothing is left; at most `k`. -/
def items {α : Type} (item : Reading α) : (k : Nat) → Reading (List α)
  | 0 => pure []
  | k + 1 => do
    if ← atEnd then pure []
    else
      let a ← item
      pure (a :: (← items item k))

/-- Reads items until nothing is left. Each item takes a byte at least. -/
def many {α : Type} (item : Reading α) : Reading (List α) := do items item (← get).length

/-- The bytes that a reading takes. -/
def taken (r : Reading Unit) : Reading Bytes := do
  let before ← get
  r
  pure (before.take (before.length - (← get).length))

/-- A length, which may not be 0 if that is a fault. -/
def length (width : Nat) (ifEmpty : Option Corruption) : Reading Nat := do
  let n ← plain width
  match ifEmpty with
  | some c => if n = 0 then fail c else pure n
  | none => pure n

/-- Bytes behind their length. -/
def string (width : Nat) (ifEmpty : Option Corruption) : Reading Bytes := do bytes (← length width ifEmpty)

/-- A list of items behind its length. -/
def listOf {α : Type} (width : Nat) (ifEmpty : Option Corruption) (item : Reading α) : Reading (List α) := do
  pure (← part (← string width ifEmpty) (many item)).1

end Reading

end Conduit.Tls.Sized
