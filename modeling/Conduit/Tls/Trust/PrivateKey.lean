import Conduit.Tls.Trust.Algorithm

/-!
# Private keys

How the key of a server is read: in the wrapping that is common to all kinds, or in that of its own kind. What is kept is
the kind of a key and its public half.

* `SigningKey.read?`: a key in a section of a kind.
* `SigningKey.chooseScheme?`: how it signs for a peer.
-/

namespace Conduit.Tls.Trust

open Der (value)

/-- A key that signs. -/
structure SigningKey where
  kind : KeyKind
  /-- The bits of its public half. -/
  bits : Bytes
  deriving DecidableEq, Repr

namespace SigningKey

open Der Der.Reading

/-- The public half as it stands in a certificate. -/
def publicKey (k : SigningKey) : PublicKey := ⟨k.kind.id, k.bits⟩

/-- The ways in which it signs, the best first. -/
def ways (k : SigningKey) : List Nat :=
  match k.kind with
  | .ed25519 => [0x0807]
  | .ecdsa c => if c.width = 32 then [0x0403] else [0x0503]
  | .rsa => [0x0806, 0x0805, 0x0804, 0x0601, 0x0501, 0x0401]

/-- The way in which it signs for a peer that takes some. -/
def chooseScheme? (k : SigningKey) (offered : List Nat) : Option Nat := k.ways.find? offered.contains

/-- What is in the common wrapping of a key of a kind: its bytes, and its public half if that is there. It is there from
the second version on, which not all kinds have. -/
def unwrap (kind : KeyKind) (second : Bool) : Der.Reading (Bytes × Option Bytes) :=
  within .malformed Tag.sequence do
    let version ← small
    if (← Der.Reading.value Tag.sequence) ≠ kind.id || (if second then 1 else 0) < version then fail
    else
      let bytes ← Der.Reading.value Tag.octets
      if ← isNext Tag.part0 then
        let _ ← Der.Reading.value Tag.part0
      if version = 0 then pure (bytes, none)
      else if ← isNext Tag.part1 then
        pure (bytes, some (← within .malformed Tag.part1 (wholeBits Tag.bits)))
      else pure (bytes, some (← wholeBits Tag.bits1))

/-- What the common wrapping holds, wrapped anew. -/
def wrap (kind : KeyKind) (bytes : Bytes) : Bytes :=
  Der.value Tag.sequence (Der.value Tag.integer [0] ++ Der.value Tag.sequence kind.id ++ Der.value Tag.octets bytes)

/-- How many bytes a seed has. -/
def seedSize : Nat := 32

/-- A key from a seed; if its public half is there, it must be right. -/
def ofSeed? (seed : Bytes) (given : Option Bytes) : Option SigningKey :=
  let bits := Edwards.publicKey seed
  if seed.length = seedSize && (given.getD bits) == bits then some ⟨.ed25519, bits⟩ else none

/-- Reads a key in the common wrapping that is a seed. -/
def readSeed? (der : Bytes) : Option SigningKey := do
  let (bytes, given) ← run? der (unwrap .ed25519 true)
  ofSeed? (← run? bytes (Der.Reading.value Tag.octets)) given

/-- Reads the body of a key on a curve: a number, and the point that it stands for. -/
def pointBody (c : Curve) : Der.Reading (Bytes × Bytes) :=
  within .malformed Tag.sequence do
    if (← small) ≠ 1 then fail
    else
      let secret ← Der.Reading.value Tag.octets
      if ← isNext Tag.part0 then
        let curve ← Der.Reading.value Tag.part0
        if genericPoint ++ curve ≠ KeyKind.id (.ecdsa c) then fail
      pure (secret, ← within .malformed Tag.part1 (wholeBits Tag.bits))
where
  /-- The name of all keys on curves. -/
  genericPoint : Bytes := Der.value Tag.object [0x2A, 0x86, 0x48, 0xCE, 0x3D, 0x02, 0x01]

/-- Reads a key on a curve in the common wrapping. -/
def readPoint? (c : Curve) (der : Bytes) : Option SigningKey := do
  let (bytes, _) ← run? der (unwrap (.ecdsa c) false)
  let (secret, point) ← run? bytes (pointBody c)
  if secret.length = c.width && c.publicKey (numberOf secret) = some point then some ⟨.ecdsa c, point⟩ else none

/-- The most bits of a modulus that signs. -/
def maxBits : Nat := 4096

/-- Reads the body of a key that is a modulus: the factors must fit, and both have half of its bits, rounded up. -/
def readModulus? (der : Bytes) : Option SigningKey := do
  let numbers ← run? der <| within .malformed Tag.sequence do
    if (← small) ≠ 0 then fail
    else
      let n ← positive
      let e ← positive
      let d ← positive
      let p ← positive
      let q ← positive
      let dp ← positive
      let dq ← positive
      let back ← positive
      pure (n, e, d, p, q, dp, dq, back)
  let (n, e, d, p, q, dp, dq, back) := numbers
  let key : Rsa.Key := ⟨n, e⟩
  let half := (key.bits + 1) / 2
  let fits := key.isSound maxBits 65537 && half % 512 = 0 && p.log2 + 1 = half && q.log2 + 1 = half && p * q = n &&
    2 ^ half ≤ d && d < n && d % 2 = 1 && dp < p && dp % 2 = 1 && dq < q && dq % 2 = 1 && back < p && back * q % p = 1
  if fits then some ⟨.rsa, key.write⟩ else none

/-- Reads a key that is a modulus in the common wrapping. -/
def readWrappedModulus? (der : Bytes) : Option SigningKey := do
  let (bytes, _) ← run? der (unwrap .rsa false)
  readModulus? bytes

/-- Reads the key of a section. The kind of section says how it is wrapped. -/
def read? (label : String) (der : Bytes) : Option SigningKey :=
  let point (der : Curve → Bytes) : Option SigningKey := readPoint? .p256 (der .p256) <|> readPoint? .p384 (der .p384)
  match label with
  | "PRIVATE KEY" => readWrappedModulus? der <|> point (fun _ => der) <|> readSeed? der
  | "RSA PRIVATE KEY" => readModulus? der
  | "EC PRIVATE KEY" => point fun c => wrap (.ecdsa c) der
  | _ => none

end SigningKey

end Conduit.Tls.Trust
