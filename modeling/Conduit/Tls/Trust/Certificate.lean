import Conduit.Tls.Trust.Algorithm
import Conduit.Tls.Trust.Names

/-!
# Certificates

The parts of a certificate that are looked at, and what can be read from them without asking who has issued it.

* `Certificate.ofBytes`: a certificate to its end.
* `Certificate.readPeriod`, `Certificate.readAuthority`, `Certificate.otherPurposes?`: what its parts say.
* `Anchor.ofBytes`: what is kept of a certificate that is trusted.
-/

namespace Conduit.Tls.Trust

/-- The parts of a certificate that are looked at. -/
structure Certificate where
  /-- What is signed. -/
  signed : Bytes
  /-- The name of the algorithm of the signature. -/
  scheme : Bytes
  signature : Bytes
  issuer : Bytes
  validity : Bytes
  subject : Bytes
  publicKey : Bytes
  /-- The extensions that are looked at, by the last byte of their name. -/
  extensions : List (UInt8 × Bytes) := []
  deriving Repr

namespace Certificate

open Der Der.Reading

/-- The last bytes of the names of extensions. -/
def keyUsage : UInt8 := 15
/-- Names beside that of the subject. -/
def names : UInt8 := 17
/-- Whether it is that of an authority. -/
def constraints : UInt8 := 19
/-- What an authority may name. -/
def nameConstraints : UInt8 := 30
/-- Where to learn that it was taken back. -/
def revocations : UInt8 := 31
/-- What it may be used for. -/
def keyPurposes : UInt8 := 37

/-- The extensions that are looked at. -/
def known : List UInt8 := [keyUsage, names, constraints, nameConstraints, revocations, keyPurposes]

/-- The only version that is taken. -/
def version : Der.Reading Unit :=
  within (.refused .version) Tag.part0 do
    if (← small) ≠ 2 then refuse .version

/-- Reads an extension; what is known may not come twice, and what is not known may be critical only if it is ignored.
That about the usage of the key is no sequence. -/
def readExtension (ignoring : Bool) (seen : List (UInt8 × Bytes)) : Der.Reading (List (UInt8 × Bytes)) := do
  let id ← Der.Reading.value Tag.object
  let critical ← flag
  let body ← Der.Reading.value Tag.octets
  match id with
  | [0x55, 0x1D, n] =>
    if !known.contains n then stranger critical
    else if seen.any (·.1 == n) then refuse .repeatedExtension
    else if n = keyUsage then pure (seen ++ [(n, body)])
    else pure (seen ++ [(n, ← whole .malformed body (Der.Reading.value Tag.sequence))])
  | _ => stranger critical
where
  /-- An extension that is not known. -/
  stranger (critical : Bool) : Der.Reading (List (UInt8 × Bytes)) :=
    if critical && !ignoring then refuse .criticalExtension else pure seen

/-- Reads extensions until nothing is left; at least one, and at most `k`. -/
def readExtensions (ignoring : Bool) : (k : Nat) → List (UInt8 × Bytes) → Der.Reading (List (UInt8 × Bytes))
  | 0, _ => throw .misfit
  | k + 1, seen => do
    let seen ← within .misfit Tag.sequence (readExtension ignoring seen)
    if ← atEnd then pure seen else readExtensions ignoring k seen

/-- Reads what is signed of a certificate. The signature's algorithm is named twice. -/
def readSigned (ignoring : Bool) (signed scheme signature : Bytes) : Der.Reading Certificate := do
  version
  let _ ← Der.Reading.value Tag.integer
  if (← Der.Reading.value Tag.sequence) ≠ scheme then refuse .twoSchemes
  else
    let issuer ← Der.Reading.value Tag.sequence
    let validity ← Der.Reading.value Tag.sequence
    let subject ← Der.Reading.value Tag.sequence
    let publicKey ← Der.Reading.value Tag.sequence
    let extensions ←
      if ← atEnd then pure []
      else within .misfit Tag.part3 (within .misfit Tag.sequence do readExtensions ignoring (← get).length [])
    pure { signed := Der.value Tag.sequence signed, scheme, signature, issuer, validity, subject, publicKey, extensions }

/-- Reads a certificate; critical extensions that are not known are refused or ignored. -/
def read (ignoring : Bool) : Der.Reading Certificate := do
  let (signed, scheme, signature) ← within .misfit Tag.sequence do
    let signed ← Der.Reading.value Tag.sequence
    let scheme ← Der.Reading.value Tag.sequence
    pure (signed, scheme, ← wholeBits Tag.bits)
  whole .misfit signed (readSigned ignoring signed scheme signature)

/-- Reads a certificate to its end. -/
def ofBytes (der : Bytes) : Except Der.Fault Certificate := toEnd .misfit der (read false)

/-- What an extension holds. -/
def extension? (c : Certificate) (n : UInt8) : Option Bytes := c.extensions.lookup n

/-- The names that it is valid for. -/
def allNames (c : Certificate) : List (Except Der.Fault GeneralName) := namesIn (c.extension? names)

/-! ## Time -/

/-- A decimal number of two digits, within bounds. -/
def twoDigits (lo hi : Nat) : Der.Reading Nat := do
  match ← get with
  | a :: b :: rest =>
    set rest
    let isDigit (c : UInt8) : Bool := 48 ≤ c && c ≤ 57
    let n := (a.toNat - 48) * 10 + (b.toNat - 48)
    if isDigit a && isDigit b && lo ≤ n && n ≤ hi then pure n else throw .time
  | _ => throw .time

/-- How many days a month has. -/
def daysIn (year month : Nat) : Nat :=
  if [4, 6, 9, 11].contains month then 30
  else if month ≠ 2 then 31
  else if year % 4 = 0 && (year % 100 ≠ 0 || year % 400 = 0) then 29
  else 28

/-- The body of a time, as a number that grows with it. No time is before 1970. -/
def moment (short : Bool) : Der.Reading Nat := do
  let high ← if short then pure 0 else twoDigits 0 99
  let low ← twoDigits 0 99
  let year := (if short then if 50 ≤ low then 19 else 20 else high) * 100 + low
  let month ← twoDigits 1 12
  let day ← twoDigits 1 (daysIn year month)
  let hour ← twoDigits 0 23
  let minute ← twoDigits 0 59
  let second ← twoDigits 0 59
  match ← get with
  | 90 :: rest =>
    set rest
    if year < 1970 then throw .time
    else pure (((((year * 12 + month) * 31 + day) * 24 + hour) * 60 + minute) * 60 + second)
  | _ => throw .time

/-- A time. -/
def time : Der.Reading Nat := do
  if ← isNext Tag.shortTime then within .misfit Tag.shortTime (moment true)
  else within .misfit Tag.longTime (moment false)

/-- Reads from when and until when a certificate is valid. -/
def readPeriod : Der.Reading (Nat × Nat) := do
  let start ← time
  pure (start, ← time)

/-! ## Use -/

/-- Reads whether a certificate may be that of an authority, and how many authorities may follow. Nothing says no. -/
def readAuthority : Der.Reading (Bool × Option Nat) := do
  let isAuthority ← flag
  if ← atEnd then pure (isAuthority, none) else pure (isAuthority, some (← small))

/-- The name of the purpose to authenticate a server. -/
def serverPurpose : Bytes := [0x2B, 0x06, 0x01, 0x05, 0x05, 0x07, 0x03, 0x01]

/-- Reads names of purposes, at most `k`, until that of a server is found; otherwise all of them. -/
def purposesFrom : (k : Nat) → Der.Reading (Option (List Bytes))
  | 0 => pure (some [])
  | k + 1 => do
    let id ← Der.Reading.value Tag.object
    if id = serverPurpose then
      let _ ← rest
      pure none
    else if ← atEnd then pure (some [id])
    else pure ((← purposesFrom k).map (id :: ·))

/-- The purposes that it may be used for, if that of a server is not among them. There must be one. -/
def otherPurposes? (c : Certificate) : Except Der.Fault (Option (List Bytes)) :=
  match c.extension? keyPurposes with
  | none => .ok none
  | some [] => .error (.refused .noPurpose)
  | some body => toEnd .malformed body (purposesFrom (body.length + 1))

end Certificate

/-- What is kept of a certificate that is trusted. -/
structure Anchor where
  subject : Bytes
  publicKey : Bytes
  /-- What it may name. -/
  nameConstraints : Option Bytes := none
  deriving DecidableEq, Repr

namespace Anchor

open Der Der.Reading

/-- The anchor of a certificate of the first version, which has no extensions. -/
def readOld : Der.Reading Anchor :=
  within .malformed Tag.sequence do
    let anchor ← within .malformed Tag.sequence do
      let _ ← Der.Reading.value Tag.integer
      let _ ← Der.Reading.value Tag.sequence
      let _ ← Der.Reading.value Tag.sequence
      let _ ← Der.Reading.value Tag.sequence
      let subject ← Der.Reading.value Tag.sequence
      pure { subject, publicKey := ← Der.Reading.value Tag.sequence }
    let _ ← Der.Reading.value Tag.sequence
    let _ ← Der.Reading.value Tag.bits
    pure anchor

/-- The anchor of a certificate. Its signature does not count, it may be of the first version, and critical extensions
that are not known are ignored. -/
def ofBytes (der : Bytes) : Except Der.Fault Anchor :=
  match toEnd .misfit der (Certificate.read true) with
  | .ok c => .ok ⟨c.subject, c.publicKey, c.extension? Certificate.nameConstraints⟩
  | .error (.refused .version) => (toEnd .malformed der readOld).mapError fun _ => .malformed
  | .error f => .error f

end Anchor

end Conduit.Tls.Trust
