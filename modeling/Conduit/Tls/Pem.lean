import Conduit.Text.Base64

/-!
# PEM

Certificates and keys as text: sections between a line that opens one of a kind and a line that closes it. Lines outside
a section are passed over.

* `Pem.next`: the first section of a kind that is known.
* `Pem.certificates`, `Pem.privateKey`: what is wanted of a text, in order.
-/

namespace Conduit.Tls.Pem

/-- Why a text cannot be read. -/
inductive ReadFault
  /-- The text ends within a section of this kind. -/
  | missingSectionEnd (kind : Bytes)
  /-- A line opens a section and is not complete. -/
  | illegalSectionStart (line : Bytes)
  | base64 (f : Base64.DecodeFault)
  | noItems
  deriving DecidableEq, Repr

/-- Bytes as a list of decimal numbers. -/
def bytesText (b : Bytes) : String := "[" ++ ", ".intercalate (b.map fun x => toString x.toNat) ++ "]"

/-- The text shown to a person. -/
def ReadFault.message : ReadFault → String
  | .missingSectionEnd kind => "missing section end marker: " ++ bytesText kind
  | .illegalSectionStart line => "illegal section start: " ++ bytesText line
  | .base64 f => "base64 decode error: " ++ f.debugText
  | .noItems => "no items found"

/-- The bytes of a text. -/
def ascii (s : String) : Bytes := s.toUTF8.toList

/-- Cuts a text at the ends of its lines. -/
def lines : Bytes → List Bytes
  | [] => []
  | b => (b.splitOnP fun c => c = 10 || c = 13)

/-- What comes before the kind in a line that opens a section. -/
def beginMark : Bytes := ascii "-----BEGIN "

/-- What comes before the kind in a line that closes a section. -/
def endMark : Bytes := ascii "-----END "

/-- What comes after the kind. -/
def dashes : Bytes := ascii "-----"

/-- The kind in a line that opens a section. Exactly five dashes end the line; blanks between them and after them do
not count. -/
def sectionKind (line : Bytes) : Except ReadFault Bytes :=
  let tail := (line.reverse.takeWhile fun c => c = 45 || c = 32).reverse
  if tail.count 45 = 5 then
    let blanks := (tail.takeWhile (· = 32)).length
    .ok ((line.take (line.length - tail.length + blanks)).drop beginMark.length)
  else .error (.illegalSectionStart line)

/-- The kinds that are known. -/
def knownKinds : List Bytes :=
  ["CERTIFICATE", "PUBLIC KEY", "RSA PRIVATE KEY", "PRIVATE KEY", "EC PRIVATE KEY", "X509 CRL", "CERTIFICATE REQUEST",
    "ECHCONFIG"].map ascii

/-- A section: its kind and what it holds. -/
structure Section where
  kind : Bytes
  der : Bytes
  deriving DecidableEq, Repr

/-- The first section of a known kind, and the lines after it. `kind` is the kind of the section that is open, and
`held` what it holds so far. -/
def next (kind : Option Bytes) (held : Bytes) : List Bytes → Except ReadFault (Option (Section × List Bytes))
  | [] =>
    match kind with
    | some k => .error (.missingSectionEnd k)
    | none => .ok none
  | line :: rest =>
    if beginMark.isPrefixOf line then
      match sectionKind line with
      | .error f => .error f
      | .ok k => next (some k) held rest
    else
      match kind with
      | none => next none held rest
      | some k =>
        if (endMark ++ k ++ dashes).isPrefixOf line then
          if knownKinds.contains k then
            match Base64.decode held with
            | .error f => .error (.base64 f)
            | .ok der => .ok (some (⟨k, der⟩, rest))
          else next none [] rest
        else next (some k) (held ++ line) rest

/-- All sections of known kinds, at most `n`; what comes after a fault is not read. -/
def sectionsIn : (n : Nat) → List Bytes → List (Except ReadFault Section)
  | 0, _ => []
  | n + 1, ls =>
    match next none [] ls with
    | .error f => [.error f]
    | .ok none => []
    | .ok (some (s, rest)) => .ok s :: sectionsIn n rest

/-- All sections of known kinds; what comes after a fault is not read. -/
def sections (text : Bytes) : List (Except ReadFault Section) :=
  let ls := lines text
  sectionsIn ls.length ls

/-- The kind of a section as a text. -/
def kindText (s : Section) : String := (String.fromUTF8? ⟨s.kind.toArray⟩).getD ""

/-- The sections of some kinds; a fault stays. -/
def ofKinds (kinds : List String) (text : Bytes) : List (Except ReadFault Section) :=
  (sections text).filter fun
    | .ok s => (kinds.map ascii).contains s.kind
    | .error _ => true

/-- The certificates of a text. -/
def certificates (text : Bytes) : List (Except ReadFault Bytes) :=
  (ofKinds ["CERTIFICATE"] text).map fun r => r.map (·.der)

/-- The first private key of a text. -/
def privateKey (text : Bytes) : Except ReadFault Section :=
  match ofKinds ["PRIVATE KEY", "RSA PRIVATE KEY", "EC PRIVATE KEY"] text with
  | [] => .error .noItems
  | r :: _ => r

/-- Cuts bytes into lines of 64; at most `k` lines. -/
def wrapLines : (k : Nat) → Bytes → Bytes
  | 0, b => b
  | k + 1, b => if b.isEmpty then [] else b.take 64 ++ [10] ++ wrapLines k (b.drop 64)

/-- Writes a section. -/
def write (s : Section) : Bytes :=
  let body := Base64.encode s.der
  beginMark ++ s.kind ++ dashes ++ [10] ++ wrapLines body.length body ++ endMark ++ s.kind ++ dashes ++ [10]

end Conduit.Tls.Pem
