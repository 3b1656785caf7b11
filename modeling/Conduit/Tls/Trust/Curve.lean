import Conduit.Tls.BigEndian
import Conduit.Tls.Trust.Modular

/-!
# Signatures on prime curves

The two curves `y ^ 2 = x ^ 3 - 3 * x + b` over prime fields on which keys may lie. A point is written by its
coordinates with a mark in front.

* `Curve.read?`, `Curve.write`: points as bytes.
* `Curve.publicKey`: the point of a private key.
* `Curve.verify`: whether two numbers sign a hash.
-/

namespace Conduit.Tls.Trust

/-- A curve over a prime field, with a point on it. -/
structure Curve where
  prime : Nat
  b : Nat
  x : Nat
  y : Nat
  /-- How often the point must be added to itself to vanish. -/
  order : Nat
  /-- How many bytes a coordinate has. -/
  width : Nat
  deriving DecidableEq, Repr

namespace Curve

/-- The shorter one. -/
def p256 : Curve where
  prime := 2 ^ 256 - 2 ^ 224 + 2 ^ 192 + 2 ^ 96 - 1
  b := 0x5ac635d8aa3a93e7b3ebbd55769886bc651d06b0cc53b0f63bce3c3e27d2604b
  x := 0x6b17d1f2e12c4247f8bce6e563a440f277037d812deb33a0f4a13945d898c296
  y := 0x4fe342e2fe1a7f9b8ee7eb4a7c0f9e162bce33576b315ececbb6406837bf51f5
  order := 0xffffffff00000000ffffffffffffffffbce6faada7179e84f3b9cac2fc632551
  width := 32

/-- The longer one. -/
def p384 : Curve where
  prime := 2 ^ 384 - 2 ^ 128 - 2 ^ 96 + 2 ^ 32 - 1
  b := 0xb3312fa7e23ee7e4988e056be3f82d19181d9c6efe8141120314088f5013875ac656398d8a2ed19d2a85c8edd3ec2aef
  x := 0xaa87ca22be8b05378eb1c71ef320ad746e1d3b628ba79b9859f741e082542a385502f25dbf55296c3a545e3872760ab7
  y := 0x3617de4a96262c6f5d9e98bf9292dc29f8f41dbd289a147ce9da3113b5f0b8c00a60b1ce1d7e819d7a431d7c90ea0e5f
  order := 0xffffffffffffffffffffffffffffffffffffffffffffffffc7634d81f4372ddf581a0db248b0a77aecec196accc52973
  width := 48

/-- The byte in front of a point of which both coordinates are written. -/
def plainMark : UInt8 := 4

variable (c : Curve)

/-- Whether the coordinates are those of a point of the curve. -/
def has (x y : Nat) : Bool :=
  x < c.prime && y < c.prime && (y * y + 3 * x) % c.prime == (x ^ 3 + c.b) % c.prime

/-- Writes the coordinates of a point. -/
def write (x y : Nat) : Bytes := plainMark :: (bigEndian c.width x ++ bigEndian c.width y)

/-- The coordinates of a point, if bytes are one. -/
def read? : Bytes → Option (Nat × Nat)
  | [] => none
  | mark :: rest =>
    let (x, y) := (numberOf (rest.take c.width), numberOf (rest.drop c.width))
    if mark = plainMark && rest.length = 2 * c.width && c.has x y then some (x, y) else none

/-! ## Sums of points -/

/-- A point `(x / z ^ 2, y / z ^ 3)`; the one with `z = 0` changes nothing. -/
structure Scaled where
  x : Nat
  y : Nat
  z : Nat
  deriving Repr

/-- The point that changes nothing. -/
def zero : Scaled := ⟨1, 1, 0⟩

/-- A product of coordinates. -/
def mul (a b : Nat) : Nat := a * b % c.prime

/-- A difference of coordinates. -/
def sub (a b : Nat) : Nat := difference c.prime a b

/-- A point added to itself. -/
def double (p : Scaled) : Scaled :=
  let zz := c.mul p.z p.z
  let yy := c.mul p.y p.y
  let m := c.mul 3 (c.mul (c.sub p.x zz) (p.x + zz))
  let s := c.mul 4 (c.mul p.x yy)
  let x := c.sub (c.mul m m) (c.mul 2 s)
  ⟨x, c.sub (c.mul m (c.sub s x)) (c.mul 8 (c.mul yy yy)), c.mul 2 (c.mul p.y p.z)⟩

/-- The sum of two points. -/
def add (p q : Scaled) : Scaled :=
  if p.z = 0 then q
  else if q.z = 0 then p
  else
    let (pp, qq) := (c.mul p.z p.z, c.mul q.z q.z)
    let (u, v) := (c.mul p.x qq, c.mul q.x pp)
    let (s, t) := (c.mul p.y (c.mul q.z qq), c.mul q.y (c.mul p.z pp))
    if u = v then (if s = t then c.double p else zero)
    else
      let (h, r) := (c.sub v u, c.sub t s)
      let hh := c.mul h h
      let (hhh, uhh) := (c.mul h hh, c.mul u hh)
      let x := c.sub (c.sub (c.mul r r) hhh) (c.mul 2 uhh)
      ⟨x, c.sub (c.mul r (c.sub uhh x)) (c.mul s hhh), c.mul h (c.mul p.z q.z)⟩

/-- The sum of `n` times a point. -/
def times (n x y : Nat) : Scaled := multiple c.add zero n ⟨x, y, 1⟩

/-- The coordinates of a point, if it has any. -/
def plain? (p : Scaled) : Option (Nat × Nat) :=
  if p.z = 0 then none
  else
    let i := inverse c.prime p.z
    let ii := c.mul i i
    some (c.mul p.x ii, c.mul p.y (c.mul i ii))

/-! ## Keys and signatures -/

/-- The point of a private key. -/
def publicKey (secret : Nat) : Option Bytes :=
  if secret = 0 || c.order ≤ secret then none
  else (c.plain? (c.times secret c.x c.y)).map fun (x, y) => c.write x y

/-- Whether two numbers sign a hash with the key of a point. Of a long hash the front counts. -/
def verify (key hash : Bytes) (r s : Nat) : Bool :=
  match c.read? key with
  | none => false
  | some (x, y) =>
    if r = 0 || s = 0 || c.order ≤ r || c.order ≤ s then false
    else
      let i := inverse c.order s
      let e := numberOf (hash.take c.width)
      match c.plain? (c.add (c.times (e * i % c.order) c.x c.y) (c.times (r * i % c.order) x y)) with
      | none => false
      | some (x, _) => x % c.order = r

end Curve

end Conduit.Tls.Trust
