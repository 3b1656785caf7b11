import Conduit.Power
import Conduit.Segments

/-!
# Numbers as bytes

Numbers with the highest byte first.

* `numberOf`: the number of bytes; `bigEndian`: the bytes of a number.
-/

namespace Conduit.Tls

/-- The number of bytes with the highest first. -/
def numberOf (b : Bytes) : Nat := b.foldl (fun n x => n * 256 + x.toNat) 0

/-- A number in a count of bytes, the highest first. -/
def bigEndian : (width : Nat) → Nat → Bytes
  | 0, _ => []
  | w + 1, n => UInt8.ofNat (n / 256 ^ w) :: bigEndian w n

end Conduit.Tls
