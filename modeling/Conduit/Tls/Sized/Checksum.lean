import Conduit.Segments

/-!
# Checksums

What stands for secrets: a running checksum over bytes, and as many bytes as are wanted from a checksum. Equal bytes have
equal checksums; that others differ is taken for granted.
-/

namespace Conduit.Tls.Sized.Checksum

/-- Where a checksum starts. -/
def basis : UInt64 := 0xcbf29ce484222325

/-- A checksum over more bytes. -/
def add (start : UInt64) (b : Bytes) : UInt64 := b.foldl (fun h x => (h ^^^ x.toUInt64) * 0x100000001b3) start

/-- The checksum over bytes. -/
def ofBytes (b : Bytes) : UInt64 := add basis b

/-- A number in eight bytes, the highest first. -/
def bytes8 (n : UInt64) : Bytes :=
  ([56, 48, 40, 32, 24, 16, 8, 0] : List UInt64).map fun s => (n >>> s).toUInt8

/-- The next checksum after one. -/
def next (h : UInt64) : UInt64 :=
  let h := h + 0x9e3779b97f4a7c15
  let h := (h ^^^ (h >>> 30)) * 0xbf58476d1ce4e5b9
  let h := (h ^^^ (h >>> 27)) * 0x94d049bb133111eb
  h ^^^ (h >>> 31)

/-- Eight bytes of each of `k` checksums after one. -/
def stream : (k : Nat) → UInt64 → Bytes
  | 0, _ => []
  | k + 1, h => bytes8 (next h) ++ stream k (next h)

/-- So many bytes of a checksum. -/
def spread (size : Nat) (h : UInt64) : Bytes := (stream ((size + 7) / 8) h).take size

/-- So many bytes that stand for several others. -/
def digest (size : Nat) (parts : List Bytes) : Bytes :=
  spread size (parts.foldl (fun h b => add (add h (bytes8 (UInt64.ofNat b.length))) b) basis)

end Conduit.Tls.Sized.Checksum
