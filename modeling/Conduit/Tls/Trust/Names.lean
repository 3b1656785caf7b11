import Conduit.Text.Utf8
import Conduit.Tls.ServerName
import Conduit.Tls.Trust.Der

/-!
# Names in certificates

What a certificate is valid for: domain names, where one label may be left open, and addresses.

* `GeneralName.read`: a name as it stands in a certificate; `namesIn`: all of them.
* `domainMatches?`, `covers`: whether a name in a certificate is the one that is asked for.
-/

namespace Conduit.Tls.Trust

/-- A name in a certificate. -/
inductive GeneralName
  | domain (b : Bytes)
  | directory
  | address (b : Bytes)
  | resource (b : Bytes)
  /-- One of a kind that is not looked at. -/
  | other (kind : UInt8)
  deriving DecidableEq, Repr

namespace GeneralName

/-- Reads a name. -/
def read : Der.Reading GeneralName := do
  let (tag, body) ← Der.Reading.tagged
  match tag.toNat with
  | 0x82 => pure (.domain body)
  | 0xA4 => pure .directory
  | 0x86 => pure (.resource body)
  | 0x87 => pure (.address body)
  | 0xA0 | 0x81 | 0xA3 | 0xA5 | 0x88 => pure (.other (tag &&& 0x1F))
  | _ => Der.Reading.fail

/-- Two digits of a byte. -/
def hexByte (x : UInt8) : String := String.ofList [Nat.digitChar (x.toNat / 16), Nat.digitChar (x.toNat % 16)]

/-- The groups of a long address. -/
def addressGroups : Bytes → List Nat
  | hi :: lo :: rest => (hi.toNat * 256 + lo.toNat) :: addressGroups rest
  | _ => []

/-- The groups of a long address after the first. Zeros are left out, and two colons stand for them if something
follows; `isGap` is whether zeros were left out before. -/
def laterGroups (isGap : Bool) : List Nat → String
  | [] => ""
  | 0 :: rest => laterGroups true rest
  | g :: rest => (if isGap then "::" else ":") ++ Ip.hex g ++ laterGroups false rest

/-- An address in words. -/
def addressText (b : Bytes) : String :=
  if b.length = 4 then ".".intercalate (b.map fun x => toString x.toNat)
  else if b.length = 16 then
    match addressGroups b with
    | [] => ""
    | g :: rest => Ip.hex g ++ laterGroups false rest
  else "[invalid: " ++ ", ".intercalate (b.map hexByte) ++ "]"

/-- A name in words. -/
def text : GeneralName → String
  | .domain b => "DnsName(\"" ++ Text.Utf8.decode b ++ "\")"
  | .directory => "DirectoryName"
  | .address b => "IpAddress(" ++ addressText b ++ ")"
  | .resource b => "UniformResourceIdentifier(\"" ++ Text.Utf8.decode b ++ "\")"
  | .other kind => "Unsupported(0x" ++ hexByte kind ++ ")"

end GeneralName

/-- Names until nothing is left, at most `k`, each read or not; what comes after a fault is not read. -/
def namesFrom : (k : Nat) → Bytes → List (Except Der.Fault GeneralName)
  | 0, _ => []
  | k + 1, b =>
    if b.isEmpty then []
    else
      match GeneralName.read.run b with
      | .ok (name, rest) => .ok name :: namesFrom k rest
      | .error f => [.error f]

/-- All names of a certificate, from the extension that holds them. -/
def namesIn (b : Option Bytes) : List (Except Der.Fault GeneralName) :=
  match b with
  | some b => namesFrom b.length b
  | none => []

/-! ## Domains -/

/-- The characters of bytes, in small letters. -/
def lowered (b : Bytes) : List Char := b.map fun x => (Char.ofNat x.toNat).toLower

/-- Whether characters are a domain with no dot at its end. -/
def isClosed (cs : List Char) : Bool := isDnsName cs && cs.getLast? ≠ some '.'

/-- The most characters of a domain. -/
def maxDomain : Nat := 253

/-- Whether characters can be a domain in a certificate. The first label may be left open if two others follow. -/
def isPresented (cs : List Char) : Bool :=
  match cs with
  | '*' :: '.' :: rest => isClosed rest && rest.contains '.' && cs.length ≤ maxDomain
  | _ => isClosed cs

/-- Whether characters can be a domain that an authority may name: all domains, one, or with a dot in front those below
one. -/
def isDomainBase (cs : List Char) : Bool :=
  match cs with
  | [] => true
  | '.' :: rest => isClosed rest && cs.length ≤ maxDomain
  | _ => isClosed cs

/-- Whether a domain in a certificate is the one that is asked for; nothing, if it can be none. A dot at the end of the
one that is asked for does not count. -/
def domainMatches? (presented : Bytes) (asked : String) : Option Bool :=
  let p := lowered presented
  let a := asked.toList.map Char.toLower
  if !isPresented p then none
  else
    match p with
    | '*' :: rest =>
      let a := a.dropWhile (· ≠ '.')
      some (a == rest || a == rest ++ ['.'])
    | _ => some (a == p || a == p ++ ['.'])

/-- The bytes of an address. -/
def addressBytes : Ip → Bytes
  | .v4 w x y z => [w, x, y, z].map UInt8.ofNat
  | .v6 parts => parts.flatMap fun n => [UInt8.ofNat (n / 256), UInt8.ofNat n]

/-- Whether a name in a certificate is the one that is asked for. -/
def GeneralName.is (name : GeneralName) (asked : ServerName) : Bool :=
  match name, asked with
  | .domain b, .dns d => domainMatches? b d = some true
  | .address b, .ip i => b == addressBytes i
  | _, _ => false

/-- Whether one of the names of a certificate is the one that is asked for. What comes after a fault does not count, and
the fault does. -/
def covers (asked : ServerName) : List (Except Der.Fault GeneralName) → Except Der.Fault Bool
  | [] => .ok false
  | .error f :: _ => .error f
  | .ok name :: rest => if name.is asked then .ok true else covers asked rest

end Conduit.Tls.Trust
