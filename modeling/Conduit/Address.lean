import Conduit.Power

/-!
# Addresses

Internet addresses of both families, their text and its reading.

* `Ip.text`: dotted quads; for the longer family eight groups of hexadecimal digits, of which the longest run of
  zeros is written `::`.
* `Ip.parse?`: exactly the forms of the standard: four parts without leading zeros, groups of one to four
  digits, `::` at most once, the last two groups optionally as a dotted quad.
-/

namespace Conduit

/-- An internet address. -/
inductive Ip
  | v4 (a b c d : Nat)
  | v6 (groups : List Nat)
  deriving DecidableEq, Repr, Inhabited

/-- An address and a port. -/
structure Endpoint where
  ip : Ip
  port : Nat
  /-- The number of the link that an address of the longer family belongs to; 0 if none is named. -/
  scope : Nat := 0
  deriving DecidableEq, Repr, Inhabited

namespace Ip

/-- The address of the machine itself. -/
def loopback : Ip := .v4 127 0 0 1

/-- The start and length of the longest run of zeros; of two equal ones the first. -/
def longestZeros : List Nat → Nat → Nat × Nat
  | [], _ => (0, 0)
  | g :: rest, pos =>
    let here := ((g :: rest).takeWhile (· == 0)).length
    let later := longestZeros rest (pos + 1)
    if later.2 ≤ here then (pos, here) else later

/-- A number in lower-case hexadecimal digits without leading zeros. -/
def hex (n : Nat) : String := String.ofList (Nat.toDigits 16 n)

/-- Groups joined by colons. -/
def groupsText (gs : List Nat) : String := ":".intercalate (gs.map hex)

/-- The standard text of an address. -/
def text : Ip → String
  | .v4 a b c d => ".".intercalate ([a, b, c, d].map toString)
  | .v6 [0, 0, 0, 0, 0, 0xffff, g, h] =>
    "::ffff:" ++ ".".intercalate ([g / 256, g % 256, h / 256, h % 256].map toString)
  | .v6 gs =>
    let (start, len) := longestZeros gs 0
    if 2 ≤ len then groupsText (gs.take start) ++ "::" ++ groupsText (gs.drop (start + len))
    else groupsText gs

/-- A decimal part: one to three digits, no leading zero, at most 255. -/
def decimalPart? (cs : List Char) : Option Nat :=
  if cs.isEmpty || 3 < cs.length || !cs.all Char.isDigit then none
  else if cs.head? = some '0' && 1 < cs.length then none
  else
    let n := cs.foldl (fun n c => n * 10 + (c.toNat - 48)) 0
    if n ≤ 255 then some n else none

/-- Cuts a text at each separator. -/
def splitAt (sep : Char) : List Char → List (List Char)
  | [] => [[]]
  | c :: rest =>
    match splitAt sep rest with
    | [] => [[]]
    | p :: ps => if c = sep then [] :: p :: ps else (c :: p) :: ps

/-- Reads a dotted quad. -/
def parseV4? (cs : List Char) : Option Ip :=
  match (splitAt '.' cs).mapM decimalPart? with
  | some [a, b, c, d] => some (.v4 a b c d)
  | _ => none

/-- The value of a hexadecimal digit. -/
def hexDigit? (c : Char) : Option Nat :=
  if c.isDigit then some (c.toNat - 48)
  else if 'a' ≤ c && c ≤ 'f' then some (c.toNat - 87)
  else if 'A' ≤ c && c ≤ 'F' then some (c.toNat - 55)
  else none

/-- A group: one to four hexadecimal digits. -/
def group? (cs : List Char) : Option Nat :=
  if cs.isEmpty || 4 < cs.length then none
  else (cs.mapM hexDigit?).map (·.foldl (fun n d => n * 16 + d) 0)

/-- Groups from the parts between colons; the last part may be a dotted quad, which stands for two groups. -/
def groups? (quad : Bool) : List (List Char) → Option (List Nat)
  | [] => some []
  | [p] =>
    match group? p with
    | some g => some [g]
    | none =>
      if !quad then none
      else match parseV4? p with
        | some (.v4 a b c d) => some [a * 256 + b, c * 256 + d]
        | _ => none
  | p :: ps => do
    let g ← group? p
    let gs ← groups? quad ps
    some (g :: gs)

/-- What stands before the first `::` and after it. -/
def splitGap : List Char → Option (List Char × List Char)
  | [] => none
  | ':' :: ':' :: rest => some ([], rest)
  | c :: rest => (splitGap rest).map fun (a, b) => (c :: a, b)

/-- The parts of one side of `::`; an empty side has none. -/
def sideGroups? (quad : Bool) (cs : List Char) : Option (List Nat) :=
  if cs.isEmpty then some [] else groups? quad (splitAt ':' cs)

/-- Reads eight groups, or fewer around one `::`, which stands for at least one zero group. -/
def parseV6? (cs : List Char) : Option Ip :=
  match splitGap cs with
  | none =>
    match groups? true (splitAt ':' cs) with
    | some gs => if gs.length = 8 then some (.v6 gs) else none
    | none => none
  | some (front, back) => do
    let a ← sideGroups? false front
    let b ← sideGroups? true back
    if a.length + b.length ≤ 7 then
      some (.v6 (a ++ List.replicate (8 - a.length - b.length) 0 ++ b))
    else none

/-- Reads an address of either family. -/
def parse? (s : String) : Option Ip := parseV4? s.toList <|> parseV6? s.toList

end Ip

namespace Endpoint

/-- The text of an address with its port; the longer family stands in brackets, with its link if one is named. -/
def text (a : Endpoint) : String :=
  match a.ip with
  | .v4 .. => a.ip.text ++ ":" ++ toString a.port
  | .v6 _ =>
    let link := if a.scope = 0 then "" else "%" ++ toString a.scope
    "[" ++ a.ip.text ++ link ++ "]:" ++ toString a.port

/-- A decimal number below a limit; it may begin with zeros. -/
def decimal? (limit : Nat) (cs : List Char) : Option Nat :=
  if cs.isEmpty || !cs.all Char.isDigit then none
  else
    let n := cs.foldl (fun n c => n * 10 + (c.toNat - 48)) 0
    if n < limit then some n else none

/-- Cuts at the last separator. -/
def cutLast (sep : Char) (cs : List Char) : Option (List Char × List Char) :=
  let back := cs.reverse.takeWhile (· ≠ sep)
  if back.length < cs.length then
    some (cs.take (cs.length - back.length - 1), back.reverse)
  else none

/-- Reads an address of the longer family, with its link if one is named. -/
def scoped? (port : Nat) (cs : List Char) : Option Endpoint := do
  match cutLast '%' cs with
  | some (ip, scope) => some { ip := ← Ip.parseV6? ip, port, scope := ← decimal? (2 ^ 32) scope }
  | none => some { ip := ← Ip.parseV6? cs, port }

/-- Reads an address with its port. -/
def parse? (s : String) : Option Endpoint := do
  let (host, port) ← cutLast ':' s.toList
  let port ← decimal? (2 ^ 16) port
  match host with
  | '[' :: rest => if rest.getLast? = some ']' then scoped? port rest.dropLast else none
  | _ => (Ip.parseV4? host).map fun ip => { ip, port }

end Endpoint

end Conduit
