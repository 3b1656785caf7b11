import Conduit.Tls.BigEndian
import Conduit.Tls.Trust.Refusal

/-!
# DER

Values with a tag and a length in front, as certificates and keys hold them. Lengths are written in the shortest way, and
no other is read; every value has less than 65535 bytes.

* `Der.value`: writes a value; `Der.Reading.value`: reads one.
* `Der.Reading.within`: reads what a value holds, to its end.
-/

namespace Conduit.Tls.Trust.Der

/-- Writes a length. -/
def length (n : Nat) : Bytes :=
  if n < 0x80 then [UInt8.ofNat n]
  else if n < 0x100 then [0x81, UInt8.ofNat n]
  else [0x82, UInt8.ofNat (n / 256), UInt8.ofNat n]

/-- Writes a value. -/
def value (tag : UInt8) (body : Bytes) : Bytes := tag :: (length body.length ++ body)

namespace Tag

/-- Yes or no. -/
def boolean : UInt8 := 0x01
/-- A whole number. -/
def integer : UInt8 := 0x02
/-- Bits, of which the last may be left out. -/
def bits : UInt8 := 0x03
/-- Bytes. -/
def octets : UInt8 := 0x04
/-- The name of a thing. -/
def object : UInt8 := 0x06
/-- A text. -/
def text : UInt8 := 0x0C
/-- A time with two digits for its year. -/
def shortTime : UInt8 := 0x17
/-- A time with four digits for its year. -/
def longTime : UInt8 := 0x18
/-- Values in order. -/
def sequence : UInt8 := 0x30
/-- Values in no order. -/
def set : UInt8 := 0x31
/-- Around the first part that may be left out. -/
def part0 : UInt8 := 0xA0
/-- Around the second part that may be left out. -/
def part1 : UInt8 := 0xA1
/-- Around the third part that may be left out. -/
def part2 : UInt8 := 0xA2
/-- Around the fourth part that may be left out. -/
def part3 : UInt8 := 0xA3
/-- Bits in the place of the second part that may be left out. -/
def bits1 : UInt8 := 0x81

end Tag

/-- Why values are not taken. -/
inductive Fault
  | malformed
  /-- Something is missing in its place or follows where nothing should. -/
  | misfit
  /-- A time that does not exist. -/
  | time
  /-- They are well formed, but not wanted for a reason that has a name. -/
  | refused (why : Refusal)
  deriving DecidableEq, Repr

/-- Reads from the front of bytes. -/
abbrev Reading := StateT Bytes (Except Fault)

namespace Reading

/-- Fails: the bytes are no such values. -/
def fail {α : Type} : Reading α := throw Fault.malformed

/-- Fails: the values are not wanted. -/
def refuse {α : Type} (why : Refusal) : Reading α := throw (Fault.refused why)

/-- Takes a byte. -/
def byte : Reading UInt8 := do
  match ← get with
  | [] => fail
  | b :: rest =>
    set rest
    pure b

/-- Takes a length, which is written in the shortest way. -/
def length : Reading Nat := do
  let first ← byte
  if first < 0x80 then pure first.toNat
  else if first = 0x81 then
    let n := (← byte).toNat
    if n < 0x80 then fail else pure n
  else if first = 0x82 then
    let hi := (← byte).toNat
    let n := hi * 256 + (← byte).toNat
    if n < 0x100 then fail else pure n
  else fail

/-- How many bytes no value has. -/
def sizeLimit : Nat := 0xFFFF

/-- Takes a value: its tag and its body. Tags of several bytes are not taken. -/
def tagged : Reading (UInt8 × Bytes) := do
  let tag ← byte
  if tag &&& 0x1F = 0x1F then fail
  else
    let n ← length
    let b ← get
    let body := b.take n
    if sizeLimit ≤ n || body.length < n then fail
    else
      set (b.drop n)
      pure (tag, body)

/-- Takes the body of a value with a tag. -/
def value (tag : UInt8) : Reading Bytes := do
  let (found, body) ← tagged
  if found = tag then pure body else fail

/-- Reads bytes of their own to their end. -/
def whole {α : Type} (f : Fault) (body : Bytes) (r : Reading α) : Reading α :=
  match r.run body with
  | .ok (a, []) => pure a
  | .ok _ => throw f
  | .error g => throw g

/-- Reads what a value with a tag holds to its end. Another value in its place is the same fault as something after the
end. -/
def within {α : Type} (f : Fault) (tag : UInt8) (r : Reading α) : Reading α := do
  match (value tag).run (← get) with
  | .error _ => throw f
  | .ok (body, left) =>
    set left
    whole f body r

/-- Whether a value with a tag comes next. -/
def isNext (tag : UInt8) : Reading Bool := do pure ((← get).head? = some tag)

/-- Whether nothing is left. -/
def atEnd : Reading Bool := do pure (← get).isEmpty

/-- Takes yes or no; no, if there is neither. -/
def flag : Reading Bool := do
  if ← isNext Tag.boolean then
    within .misfit Tag.boolean do
      match ← byte with
      | 0xFF => pure true
      | 0x00 => pure false
      | _ => fail
  else pure false

/-- Takes a number that is above 0, in the shortest way. -/
def positive : Reading Nat := do
  match ← value Tag.integer with
  | [] => fail
  | first :: rest =>
    let isShortest := match rest with
      | next :: _ => first ≠ 0 || 0x80 ≤ next
      | [] => first ≠ 0
    if 0x80 ≤ first || !isShortest then fail else pure (numberOf (first :: rest))

/-- Takes a number that is not below 0 and fits in a byte. -/
def small : Reading Nat := do
  match ← value Tag.integer with
  | [n] => if n < 0x80 then pure n.toNat else fail
  | [0, n] => if n < 0x80 then fail else pure n.toNat
  | _ => fail

/-- Takes all that is left. -/
def rest : Reading Bytes := do
  let b ← get
  set ([] : Bytes)
  pure b

/-- Takes bits of which none is left out. -/
def wholeBits (tag : UInt8) : Reading Bytes :=
  within .misfit tag do
    if (← byte) ≠ 0 then fail else rest

/-- Reads bytes to their end. -/
def toEnd {α : Type} (f : Fault) (b : Bytes) (r : Reading α) : Except Fault α := ((whole f b r).run []).map (·.1)

/-- The value of bytes that are read to their end, if they can be. -/
def run? {α : Type} (b : Bytes) (r : Reading α) : Option α := (toEnd .malformed b r).toOption

end Reading

end Conduit.Tls.Trust.Der
