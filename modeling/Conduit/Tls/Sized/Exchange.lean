import Conduit.Tls.Sized.Checksum
import Conduit.Tls.Trust.Curve

/-!
# Key exchange

The groups in which two ends agree on a secret, and the halves that they send each other. Nothing is kept secret: what
the two halves have in common is a checksum. But a half is taken only if it is one of its group.

* `Group.isHalf`: whether bytes are half of an exchange.
* `Group.agree?`: what two halves have in common.
-/

namespace Conduit.Tls.Sized

open Trust (Curve)

/-- A group for a key exchange. -/
inductive Group
  | x25519 | p256 | p384
  deriving DecidableEq, Repr

namespace Group

/-- All groups, the best first. -/
def all : List Group := [.x25519, .p256, .p384]

/-- The number of a group. -/
def code : Group → Nat
  | .x25519 => 0x001d
  | .p256 => 0x0017
  | .p384 => 0x0018

/-- The group of a number. -/
def ofCode? (n : Nat) : Option Group := all.find? (·.code == n)

/-- How many bytes a half of the first group has. -/
def halfSize : Nat := 32

/-- The prime of the first group. -/
def prime25519 : Nat := 2 ^ 255 - 19

/-- The points of the first group that have nothing in common with any other. -/
def weakPoints : List Nat :=
  [0, 1, prime25519 - 1,
    325606250916557431795983626356110631294008115727848805560023387167927233504,
    39382357235489614581723060781553021112529911719440698176882885853963445705823]

/-- Whether bytes are half of an exchange. -/
def isHalf (g : Group) (half : Bytes) : Bool :=
  match g with
  | .x25519 =>
    half.length = halfSize && !weakPoints.contains (numberOf half.reverse % 2 ^ 255 % prime25519)
  | .p256 => (Curve.p256.read? half).isSome
  | .p384 => (Curve.p384.read? half).isSome

/-- Half of an exchange from bytes that nobody else has. -/
def half (g : Group) (seed : Bytes) : Bytes :=
  match g with
  | .x25519 => Checksum.digest halfSize [seed]
  | .p256 => Curve.p256.write Curve.p256.x Curve.p256.y
  | .p384 => Curve.p384.write Curve.p384.x Curve.p384.y

/-- What two halves have in common: it does not depend on which of them is one's own. -/
def agree? (g : Group) (own other : Bytes) : Option Bytes :=
  if g.isHalf other then some (List.zipWith (· ^^^ ·) own other) else none

end Group

end Conduit.Tls.Sized
