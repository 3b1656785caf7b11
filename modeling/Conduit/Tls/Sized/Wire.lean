import Conduit.Tls.Sized.Checksum
import Conduit.Tls.Sized.Corruption

/-!
# Records of the sized engine

Records have the sizes that real ones have. What they hold is not enciphered but marked: a checksum over the key, the
number of the record and its content stands at its end, so that a record that was altered, repeated or left out does not
open.

* `Wire.sealed`, `Wire.opened?`: a record that only the other end can open.
* `Wire.headerFault?`: what is wrong with the header of a record.
-/

namespace Conduit.Tls.Sized.Wire

/-- How many bytes a header has. -/
def headerSize : Nat := 5

/-- The most plaintext of one record. -/
def fragment : Nat := 16384

/-- How many bytes the body of a record may have more than its plaintext. -/
def slack : Nat := 2048

/-- The most bytes of a record. -/
def maxRecord : Nat := headerSize + fragment + slack

/-- A record from its type, the low byte of its version and its body. -/
def recordOf (type minor : UInt8) (body : Bytes) : Bytes :=
  [type, 3, minor, UInt8.ofNat (body.length / 256), UInt8.ofNat body.length] ++ body

/-- A record of the usual version. -/
def record (type : UInt8) (body : Bytes) : Bytes := recordOf type 3 body

/-- How a record is protected: the version, the key, who sends it, how many came before, and how many bytes stand in
front of what is sealed. -/
structure Protection where
  newer : Bool
  key : UInt64
  fromServer : Bool
  count : Nat
  lead : Nat

namespace Protection

/-- What stands in front of what is sealed. -/
def leadBytes (p : Protection) : Bytes := (Checksum.bytes8 (UInt64.ofNat p.count)).take p.lead

end Protection

/-- How many bytes a mark has. -/
def markSize : Nat := 16

/-- The mark of a record. It covers the type, and in the older version the two bytes after it. -/
def mark (p : Protection) (type : UInt8) (version data : Bytes) : Bytes :=
  let about := Checksum.bytes8 (UInt64.ofNat p.count) ++ [if p.fromServer then 1 else 0, type]
  let h := Checksum.add (Checksum.basis ^^^ p.key) (if p.newer then about else about ++ version)
  Checksum.spread markSize (Checksum.add h data)

/-- A sealed record. The newer version hides the type in the body, the older one puts some bytes in front of it. -/
def sealed (p : Protection) (type : UInt8) (data : Bytes) : Bytes :=
  let m := mark p type [3, 3] data
  if p.newer then record 23 (data ++ [type] ++ m) else record type (p.leadBytes ++ data ++ m)

/-- The type and the content of a sealed record, if it opens. -/
def opened? (p : Protection) (type : UInt8) (version body : Bytes) : Option (UInt8 × Bytes) :=
  let size := body.length - markSize
  let marked := body.take size
  let m := body.drop size
  if p.newer then
    match marked.getLast? with
    | none => none
    | some inner => if m == mark p inner version marked.dropLast then some (inner, marked.dropLast) else none
  else
    let data := marked.drop p.lead
    if p.lead + markSize ≤ body.length && marked.take p.lead == p.leadBytes && m == mark p type version data then
      some (type, data)
    else none

/-- Cuts plaintext into the contents of records; at most `k`. -/
def fragmentsIn : (k : Nat) → Bytes → List Bytes
  | 0, _ => []
  | k + 1, data => if data.isEmpty then [] else data.take fragment :: fragmentsIn k (data.drop fragment)

/-- Cuts plaintext into the contents of records. -/
def fragments (data : Bytes) : List Bytes := fragmentsIn data.length data

/-- Whether the version of a record is taken: any of the present family, and those for datagrams that are known by name.
-/
def isKnownVersion (major minor : UInt8) : Bool :=
  major = 3 || (major = 254 && (minor = 252 || minor = 253 || minor = 255))

/-- What is wrong with the header of a record whose body has a size. -/
def headerFault? (header : Bytes) (size : Nat) : Option Corruption :=
  match header with
  | type :: major :: minor :: _ =>
    if type < 20 || 24 < type then some .contentType
    else if !isKnownVersion major minor then some .recordVersion
    else if size = 0 && type ≠ 23 then some .emptyRecord
    else if fragment + slack ≤ size then some .largeRecord
    else none
  | _ => some .tooShort

end Conduit.Tls.Sized.Wire
