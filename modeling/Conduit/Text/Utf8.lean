import Conduit.Segments

/-!
# Bytes as a text

UTF-8 with a mark in the place of what is none: of a character that breaks off one mark for all its bytes, otherwise one
for each byte.

* `Utf8.decode`: the text of bytes.
-/

namespace Conduit.Text.Utf8

/-- A character of which some bytes were read. -/
structure Begun where
  /-- How many bytes follow after the next one. -/
  more : Nat
  /-- The bounds of the next byte. -/
  low : UInt8 := 0x80
  high : UInt8 := 0xBF
  /-- The bits so far. -/
  value : Nat
  deriving DecidableEq, Repr

/-- The mark. -/
def mark : Char := '\uFFFD'

/-- What a byte begins: a character of one byte, or a longer one. The bounds of the second byte leave out what has a
shorter form, surrogates, and what lies above all characters. -/
def start (b : UInt8) : List Char × Option Begun :=
  let n := b.toNat
  if n < 0x80 then ([Char.ofNat n], none)
  else if n < 0xC2 then ([mark], none)
  else if n < 0xE0 then ([], some { more := 0, value := n - 0xC0 })
  else if n < 0xF0 then
    let low := if n = 0xE0 then 0xA0 else 0x80
    let high := if n = 0xED then 0x9F else 0xBF
    ([], some { more := 1, low, high, value := n - 0xE0 })
  else if n < 0xF5 then
    let low := if n = 0xF0 then 0x90 else 0x80
    let high := if n = 0xF4 then 0x8F else 0xBF
    ([], some { more := 2, low, high, value := n - 0xF0 })
  else ([mark], none)

/-- The characters of bytes after a character that was begun. -/
def decodeFrom : Option Begun → Bytes → List Char
  | none, [] => []
  | some _, [] => [mark]
  | none, b :: rest => (start b).1 ++ decodeFrom (start b).2 rest
  | some p, b :: rest =>
    if p.low ≤ b && b ≤ p.high then
      let value := p.value * 64 + (b.toNat - 0x80)
      match p.more with
      | 0 => Char.ofNat value :: decodeFrom none rest
      | more + 1 => decodeFrom (some { more, value }) rest
    else mark :: ((start b).1 ++ decodeFrom (start b).2 rest)

/-- The text of bytes. -/
def decode (b : Bytes) : String := String.ofList (decodeFrom none b)

end Conduit.Text.Utf8
