import Conduit.Segments

/-!
# Digests of data

Short data is shown in full, longer data by its length, its first bytes and a checksum.
-/

namespace Conduit.Text

/-- The digits of bytes, two for each. -/
def hexText (b : Bytes) : String :=
  let digit (n : Nat) : Char := Nat.digitChar n
  String.ofList (b.flatMap fun x => [digit (x.toNat / 16), digit (x.toNat % 16)])

/-- The checksum FNV-1a of 32 bits. -/
def fnv (b : Bytes) : UInt32 := b.foldl (fun h x => (h ^^^ x.toUInt32) * 0x01000193) 0x811c9dc5

/-- How much data is shown in full. -/
def shownInFull : Nat := 32

/-- Data as it is shown. -/
inductive Digest
  | full (hex : String)
  | brief (len : Nat) (head : String) (checksum : Nat)
  deriving DecidableEq, Repr

/-- Shows data. -/
def Digest.ofBytes (b : Bytes) : Digest :=
  if b.length ≤ shownInFull then .full (hexText b)
  else .brief b.length (hexText (b.take shownInFull)) (fnv b).toNat

end Conduit.Text
