import Conduit.Power

/-!
# Repeated operations

An operation repeated many times in few steps: multiples of points, powers of numbers modulo a number.

* `multiple`: an operation repeated.
* `power`, `inverse`: powers modulo a number, and the inverse modulo a prime.
* `root`: the whole part of a root.
-/

namespace Conduit.Tls.Trust

variable {α : Type}

/-- The sum of `acc` and of `n` times `a`; `n` has at most `k` bits. -/
def multipleFrom (add : α → α → α) : (k : Nat) → (n : Nat) → (a acc : α) → α
  | 0, _, _, acc => acc
  | k + 1, n, a, acc =>
    if n = 0 then acc
    else multipleFrom add k (n / 2) (add a a) (if n % 2 = 1 then add acc a else acc)

/-- The sum of `n` times `a`. -/
def multiple (add : α → α → α) (zero : α) (n : Nat) (a : α) : α := multipleFrom add (n.log2 + 1) n a zero

/-- A power modulo a number. -/
def power (m b n : Nat) : Nat := multiple (fun x y => x * y % m) (1 % m) n (b % m)

/-- The inverse modulo a prime. -/
def inverse (p a : Nat) : Nat := power p a (p - 2)

/-- A difference modulo a number that is above both. -/
def difference (m a b : Nat) : Nat := (a + (m - b)) % m

/-- The whole part of the root of a degree, when it has at most `k` bits: the highest bit comes first. -/
def rootFrom (degree n : Nat) : (k : Nat) → (found : Nat) → Nat
  | 0, found => found
  | k + 1, found =>
    let next := found + 2 ^ k
    rootFrom degree n k (if next ^ degree ≤ n then next else found)

/-- The whole part of the root of a degree. -/
def root (degree n : Nat) : Nat := rootFrom degree n (n.log2 / degree + 1) 0

end Conduit.Tls.Trust
