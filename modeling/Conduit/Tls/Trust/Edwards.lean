import Conduit.Tls.Trust.Hash

/-!
# Signatures on the twisted curve

Keys and signatures on the curve `y ^ 2 - x ^ 2 = 1 + d * x ^ 2 * y ^ 2` modulo `2 ^ 255 - 19`. Numbers are written with
the lowest byte first, a point by its second coordinate and the sign of the first.

* `Edwards.publicKey`, `Edwards.sign`: the public key of a seed, and a signature with it.
* `Edwards.verify`: whether a signature belongs to a public key and a message.
-/

namespace Conduit.Tls.Trust.Edwards

/-- The number that coordinates are taken modulo. -/
def prime : Nat := 2 ^ 255 - 19

/-- How often the point must be added to itself to vanish. -/
def order : Nat := 2 ^ 252 + 27742317777372353535851937790883648493

/-- How many bytes a number has. -/
def width : Nat := 32

/-- The number of bytes with the lowest first. -/
def numberUp (b : Bytes) : Nat := numberOf b.reverse

/-- A number with the lowest byte first. -/
def bytesUp (n : Nat) : Bytes := (bigEndian width n).reverse

/-- A product of coordinates. -/
def mul (a b : Nat) : Nat := a * b % prime

/-- A sum of coordinates. -/
def sum (a b : Nat) : Nat := (a + b) % prime

/-- A difference of coordinates. -/
def sub (a b : Nat) : Nat := difference prime a b

/-- The factor of the curve. -/
def d : Nat := mul (prime - 121665) (inverse prime 121666)

/-- Twice the factor of the curve. -/
def twiceD : Nat := mul 2 d

/-- A square root of `-1`. -/
def rootOfMinusOne : Nat := power prime 2 ((prime - 1) / 4)

/-- A point `(x / z, y / z)` with `t = x * y / z`. -/
structure Point where
  x : Nat
  y : Nat
  z : Nat
  t : Nat
  deriving DecidableEq, Repr

namespace Point

/-- The point that changes nothing. -/
def zero : Point := ⟨0, 1, 1, 0⟩

/-- A point from its coordinates. -/
def ofCoordinates (x y : Nat) : Point := ⟨x, y, 1, mul x y⟩

/-- The sum of two points. -/
def add (p q : Point) : Point :=
  let a := mul (sub p.y p.x) (sub q.y q.x)
  let b := mul (sum p.y p.x) (sum q.y q.x)
  let c := mul (mul twiceD p.t) q.t
  let e := mul (mul 2 p.z) q.z
  let (f, g, h, i) := (sub b a, sub e c, sum e c, sum b a)
  ⟨mul f g, mul h i, mul g h, mul f i⟩

/-- The point on the other side. -/
def neg (p : Point) : Point := ⟨sub 0 p.x, p.y, p.z, sub 0 p.t⟩

/-- The sum of `n` times a point. -/
def times (n : Nat) (p : Point) : Point := multiple add zero n p

/-- Writes a point. -/
def write (p : Point) : Bytes :=
  let i := inverse prime p.z
  bytesUp (mul p.y i + 2 ^ 255 * (mul p.x i % 2))

/-- The point of a second coordinate and a sign of the first. -/
def ofHeight? (y sign : Nat) : Option Point :=
  let u := sub (mul y y) 1
  let v := sum (mul d (mul y y)) 1
  let v3 := mul v (mul v v)
  let x := mul (mul u v3) (power prime (mul u (mul v3 (mul v3 v))) ((prime - 5) / 8))
  let square := mul v (mul x x)
  let x? := if square = u then some x else if square = sub 0 u then some (mul x rootOfMinusOne) else none
  x?.map fun x => ofCoordinates (if x % 2 = sign then x else sub 0 x) y

/-- Reads a point. -/
def read? (b : Bytes) : Option Point :=
  if b.length = width then ofHeight? (numberUp b % 2 ^ 255 % prime) (numberUp b / 2 ^ 255) else none

/-- The point of which all keys are multiples. -/
def base : Point := (ofHeight? (mul 4 (inverse prime 5)) 0).getD zero

end Point

/-! ## Keys and signatures -/

/-- The number of a hash, modulo the order. -/
def challenge (parts : List Bytes) : Nat := numberUp (Hash.sha512.digest parts.flatten) % order

/-- What a seed stands for: the factor of the key, and what makes signatures vary. -/
def expand (seed : Bytes) : Nat × Bytes :=
  let h := Hash.sha512.digest seed
  (2 ^ 254 + numberUp (h.take width) % 2 ^ 254 / 8 * 8, h.drop width)

/-- The public key of a seed. -/
def publicKey (seed : Bytes) : Bytes := (Point.base.times (expand seed).1).write

/-- A signature with the key of a seed. -/
def sign (seed message : Bytes) : Bytes :=
  let (a, vary) := expand seed
  let r := challenge [vary, message]
  let front := (Point.base.times r).write
  front ++ bytesUp ((r + challenge [front, publicKey seed, message] * a) % order)

/-- Whether a signature belongs to a public key and a message. -/
def verify (key message signature : Bytes) : Bool :=
  let front := signature.take width
  let s := numberUp (signature.drop width)
  match Point.read? key with
  | none => false
  | some a =>
    signature.length = 2 * width && s < order &&
      ((Point.base.times s).add (a.neg.times (challenge [front, key, message]))).write == front

end Conduit.Tls.Trust.Edwards
