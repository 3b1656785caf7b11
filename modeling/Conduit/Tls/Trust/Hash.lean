import Conduit.Tls.BigEndian
import Conduit.Tls.Trust.Modular

/-!
# Hashes

The hashes by which signatures are made. There is one scheme for two sizes of words; its constants are the fractions of
roots of the first primes.

* `Hash.digest`: the hash of bytes.
-/

namespace Conduit.Tls.Trust

/-- A hash, by how many bits it has. -/
inductive Hash
  | sha256 | sha384 | sha512
  deriving DecidableEq, Repr

namespace Hash

/-- How many bytes a hash has. -/
def size : Hash → Nat
  | .sha256 => 32
  | .sha384 => 48
  | .sha512 => 64

/-- By how much a word is turned or, the last time, shifted before its copies are joined. -/
structure Turns where
  first : UInt64
  second : UInt64
  third : UInt64

/-- The scheme for words of a size. -/
structure Scheme where
  /-- How many bytes a word has. -/
  width : Nat
  rounds : Nat
  sum0 : Turns
  sum1 : Turns
  mix0 : Turns
  mix1 : Turns

/-- The scheme for words of 32 bits. -/
def shorter : Scheme := ⟨4, 64, ⟨2, 13, 22⟩, ⟨6, 11, 25⟩, ⟨7, 18, 3⟩, ⟨17, 19, 10⟩⟩

/-- The scheme for words of 64 bits. -/
def longer : Scheme := ⟨8, 80, ⟨28, 34, 39⟩, ⟨14, 18, 41⟩, ⟨1, 8, 7⟩, ⟨19, 61, 6⟩⟩

/-- The scheme of a hash. -/
def scheme : Hash → Scheme
  | .sha256 => shorter
  | .sha384 | .sha512 => longer

/-! ## Constants -/

/-- The first primes, more than there are rounds. -/
def primes : List Nat := (List.range 420).filter fun n => 2 ≤ n && (List.range n).all fun d => d < 2 || n % d != 0

/-- The first 64 bits of the fraction of a root. -/
def fraction (degree n : Nat) : UInt64 := UInt64.ofNat (root degree (n * 2 ^ (64 * degree)))

/-- The fractions of square roots. -/
def squareFractions : List UInt64 := (primes.take 16).map (fraction 2)

/-- The fractions of cube roots. -/
def cubeFractions : List UInt64 := (primes.take 80).map (fraction 3)

namespace Scheme

variable (s : Scheme)

/-- How many bits a word has. -/
def bits : UInt64 := UInt64.ofNat (8 * s.width)

/-- The low bits of a number, as many as a word has. -/
def low (x : UInt64) : UInt64 := x &&& (0xffffffffffffffff >>> (64 - s.bits))

/-- The high bits of a number, as many as a word has. -/
def high (x : UInt64) : UInt64 := x >>> (64 - s.bits)

/-- A word turned to the right. -/
def turn (x n : UInt64) : UInt64 := (x >>> n) ||| s.low (x <<< (s.bits - n))

/-- Three turned copies of a word joined. -/
def sum (t : Turns) (x : UInt64) : UInt64 := s.turn x t.first ^^^ s.turn x t.second ^^^ s.turn x t.third

/-- Two turned copies of a word and a shifted one joined. -/
def mix (t : Turns) (x : UInt64) : UInt64 := s.turn x t.first ^^^ s.turn x t.second ^^^ (x >>> t.third)

/-- The words of bytes, at most `k`. -/
def words : (k : Nat) → Bytes → List UInt64
  | 0, _ => []
  | k + 1, b => UInt64.ofNat (numberOf (b.take s.width)) :: words k (b.drop s.width)

/-- How many words a block has. -/
def blockWords : Nat := 16

/-- How many bytes a block has. -/
def blockSize : Nat := blockWords * s.width

/-- Adds `k` words to those of a block. -/
def extend : (k : Nat) → Array UInt64 → Array UInt64
  | 0, w => w
  | k + 1, w =>
    let back (n : Nat) : UInt64 := w.getD (w.size - n) 0
    extend k (w.push (s.low (s.mix s.mix1 (back 2) + back 7 + s.mix s.mix0 (back 15) + back 16)))

/-- A round: the words of the state with a word of the block and a constant. -/
def round (state : List UInt64) (x : UInt64 × UInt64) : List UInt64 :=
  match state with
  | [a, b, c, d, e, f, g, h] =>
    let t := h + s.sum s.sum1 e + ((e &&& f) ^^^ (s.low (~~~e) &&& g)) + s.high x.2 + x.1
    let u := s.sum s.sum0 a + ((a &&& b) ^^^ (a &&& c) ^^^ (b &&& c))
    [s.low (t + u), a, b, c, s.low (d + t), e, f, g]
  | _ => state

/-- The state after a block. -/
def block (state : List UInt64) (b : Bytes) : List UInt64 :=
  let w := s.extend (s.rounds - blockWords) (s.words blockWords b).toArray
  List.zipWith (fun x y => s.low (x + y)) state ((w.toList.zip cubeFractions).foldl s.round state)

/-- The state after at most `k` blocks. -/
def blocks : (k : Nat) → List UInt64 → Bytes → List UInt64
  | 0, state, _ => state
  | k + 1, state, b =>
    if b.isEmpty then state else blocks k (s.block state (b.take s.blockSize)) (b.drop s.blockSize)

/-- Bytes with a mark and their length after them, so that they fill blocks. -/
def padded (b : Bytes) : Bytes :=
  let length := bigEndian (2 * s.width) (8 * b.length)
  let used := (b.length + 1 + length.length) % s.blockSize
  b ++ 0x80 :: (List.replicate ((s.blockSize - used) % s.blockSize) 0 ++ length)

end Scheme

/-- The state before the first block. -/
def start (h : Hash) : List UInt64 :=
  match h with
  | .sha256 => (squareFractions.take 8).map shorter.high
  | .sha384 => squareFractions.drop 8
  | .sha512 => squareFractions.take 8

/-- The hash of bytes. -/
def digest (h : Hash) (b : Bytes) : Bytes :=
  let p := h.scheme.padded b
  ((h.scheme.blocks p.length h.start p).flatMap fun w => bigEndian h.scheme.width w.toNat).take h.size

end Hash

end Conduit.Tls.Trust
