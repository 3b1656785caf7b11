import Conduit.Tls.Failure
import Conduit.Tls.Trust.Certificate

/-!
# Distrust

Why certificates are not accepted: in words, and as a weight by which of several reasons the one that says most is told.

* `Distrust.failure`: the failure of an engine; `Distrust.stronger`: of two reasons the one that says more.
-/

namespace Conduit.Tls.Trust

/-- Why certificates are not accepted. -/
inductive Distrust
  | noCertificate
  /-- One cannot be read. -/
  | unreadable (f : Der.Fault)
  /-- One ends before it starts. -/
  | expired
  | unknownIssuer
  | badSignature
  /-- A signature is made in a way that is not known. -/
  | unknownScheme (scheme : Bytes)
  /-- A signature is made in a way that does not go with the key. -/
  | wrongKey (scheme key : Bytes)
  /-- It may be used for some purposes only. -/
  | wrongPurpose (purposes : List Bytes)
  /-- It does not name whom was asked for, but others. -/
  | wrongName (asked : ServerName) (names : List String)
  deriving DecidableEq, Repr

namespace Distrust

/-- A reason with a name. -/
def ofRefusal (r : Refusal) : Distrust := .unreadable (.refused r)

/-- Alternatives in words. -/
def alternatives (names : List String) : String :=
  match names.reverse with
  | [] => ""
  | [one] => one
  | last :: others => ", ".intercalate others.reverse ++ " or " ++ last

/-- Bytes as decimal numbers in brackets. -/
def numbersText (b : Bytes) : String := "[" ++ ", ".intercalate (b.map fun x => toString x.toNat) ++ "]"

/-- Bytes as one number in hexadecimal digits. -/
def hexText (b : Bytes) : String := "0x" ++ String.join (b.map GeneralName.hexByte)

/-- The numbers that the name of a thing is made of, the first two in one: seven bits of each byte count, each byte has the
place of eight, and a number has 64 bits. `n` is what was read of a number; one without an end is left out. -/
def objectFrom (n : UInt64) : Bytes → List Nat
  | [] => []
  | b :: rest =>
    let n := n * 256 + (b &&& 0x7F).toUInt64
    if b < 0x80 then n.toNat :: objectFrom 0 rest else objectFrom n rest

/-- The numbers of the name of a thing. -/
def objectNumbers (b : Bytes) : List Nat :=
  match objectFrom 0 b with
  | [] => []
  | n :: rest => if n < 40 then 0 :: n :: rest else if n < 80 then 1 :: (n - 40) :: rest else 2 :: (n - 80) :: rest

/-- The name of the purpose to authenticate a client. -/
def clientPurpose : Bytes := [0x2B, 0x06, 0x01, 0x05, 0x05, 0x07, 0x03, 0x02]

/-- A purpose in words. -/
def purposeText (b : Bytes) : String :=
  if b = Certificate.serverPurpose then "server authentication"
  else if b = clientPurpose then "client authentication"
  else ", ".intercalate ((objectNumbers b).map toString)

/-- A record of two fields in words. -/
def recordText (name : String) (a b : String × String) : String :=
  name ++ " \x7b " ++ a.1 ++ ": " ++ a.2 ++ ", " ++ b.1 ++ ": " ++ b.2 ++ " \x7d"

/-- The words for a reason. -/
def text : Distrust → String
  | .noCertificate | .unreadable (.malformed) | .unreadable (.misfit) | .unreadable (.time) => "BadEncoding"
  | .unreadable (.refused why) => "Other(OtherError(" ++ why.text ++ "))"
  | .expired => "Expired"
  | .unknownIssuer => "UnknownIssuer"
  | .badSignature => "BadSignature"
  | .unknownScheme scheme =>
    recordText "UnsupportedSignatureAlgorithmContext" ("signature_algorithm_id", numbersText scheme)
      ("supported_algorithms", "[" ++ ", ".intercalate (Algorithm.all.map fun a => hexText a.id) ++ "]")
  | .wrongKey scheme key =>
    recordText "UnsupportedSignatureAlgorithmForPublicKeyContext" ("signature_algorithm_id", numbersText scheme)
      ("public_key_algorithm_id", numbersText key)
  | .wrongPurpose purposes =>
    "certificate does not allow extended key usage for " ++ purposeText Certificate.serverPurpose ++ ", allows " ++
      ", ".intercalate (purposes.map purposeText)
  | .wrongName asked names =>
    "certificate not valid for name \"" ++ asked.text ++ "\"; certificate is " ++
      if names.isEmpty then "not valid for any names (according to its subjectAltName extension)"
      else "only valid for " ++ alternatives names

/-- The failure of an engine. -/
def failure : Distrust → Failure
  | .noCertificate => .noCertificatesPresented
  | d => .invalidCertificate d.text

/-- Why a key cannot have signed in a way that does not go with it. -/
def mismatch (a : Algorithm) (k : PublicKey) : Distrust :=
  if k.id = KeyKind.id (.ecdsa .p384) then .ofRefusal .keyDistrusted else .wrongKey a.id k.id

/-- How much a reason says. -/
def weight : Distrust → Nat
  | .unreadable .malformed => 10
  | .unreadable .time => 20
  | .unreadable .misfit => 40
  | .unreadable (.refused why) => why.weight
  | .wrongName _ _ => 280
  | .badSignature => 260
  | .wrongPurpose _ => 240
  | .expired => 190
  | .wrongKey _ _ => 150
  | .unknownScheme _ => 140
  | .noCertificate | .unknownIssuer => 0

/-- Of two reasons the one that says more; the first, if both say as much. -/
def stronger (x y : Distrust) : Distrust := if x.weight < y.weight then y else x

/-- Whether a reason ends the search for another way to trust. -/
def isFinal : Distrust → Bool
  | .unreadable (.refused why) => why.isFinal
  | _ => false

end Distrust

end Conduit.Tls.Trust
