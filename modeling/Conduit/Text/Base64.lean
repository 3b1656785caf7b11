import Conduit.Segments

/-!
# Base64

Bytes as letters, four for three of them. Reading passes over white space and does not ask for the filling at the end,
but knows whether it can stand where it stands. Letters are taken by eight; what a group holds is asked when the next one
begins.

* `Base64.decode`: reads letters; `Base64.encode`: writes them.
-/

namespace Conduit.Base64

/-- Why letters cannot be read. -/
inductive DecodeFault
  | invalidCharacter (code : UInt8)
  /-- A letter after the filling. -/
  | prematurePadding
  /-- One letter alone, or filling that does not complete a group of four. -/
  | invalidTrailingPadding
  deriving DecidableEq, Repr

/-- The text of a fault in diagnostics. -/
def DecodeFault.debugText : DecodeFault → String
  | .invalidCharacter code => "InvalidCharacter(" ++ toString code.toNat ++ ")"
  | .prematurePadding => "PrematurePadding"
  | .invalidTrailingPadding => "InvalidTrailingPadding"

/-- The value of a letter. -/
def value? (c : UInt8) : Option Nat :=
  let n := c.toNat
  if 65 ≤ n && n ≤ 90 then some (n - 65)
  else if 97 ≤ n && n ≤ 122 then some (n - 71)
  else if 48 ≤ n && n ≤ 57 then some (n + 4)
  else if n = 43 then some 62
  else if n = 47 then some 63
  else none

/-- The letter of a value. -/
def letter (v : Nat) : UInt8 :=
  UInt8.ofNat (if v < 26 then v + 65 else if v < 52 then v + 71 else if v < 62 then v - 4 else if v = 62 then 43 else 47)

/-- White space. -/
def isSpace (c : UInt8) : Bool := c = 32 || (9 ≤ c && c ≤ 13)

/-- The sign that fills up a group. -/
def filling : UInt8 := 61

/-- A letter's value, or `none` for filling. -/
abbrev Item := Option Nat

/-- What a letter stands for. -/
def item (c : UInt8) : Except DecodeFault Item :=
  if c = filling then .ok none
  else
    match value? c with
    | some v => .ok (some v)
    | none => .error (.invalidCharacter c)

/-- The bytes of four values. -/
def quartet (a b c d : Nat) : Bytes :=
  let n := ((a * 64 + b) * 64 + c) * 64 + d
  [UInt8.ofNat (n / 65536), UInt8.ofNat (n / 256), UInt8.ofNat n]

/-- The bytes of a group that others follow: it has no filling. -/
def inner : List Item → Except DecodeFault Bytes
  | some a :: some b :: some c :: some d :: rest => (inner rest).map (quartet a b c d ++ ·)
  | [] => .ok []
  | _ => .error .prematurePadding

/-- The bytes of the last four items or fewer. -/
def last : List Item → Except DecodeFault Bytes
  | [] => .ok []
  | [some a, some b, some c, some d] => .ok (quartet a b c d)
  | [some a, some b, some c, none] | [some a, some b, some c] => .ok ((quartet a b c 0).take 2)
  | [some a, some b, none, none] | [some a, some b] => .ok ((quartet a b 0 0).take 1)
  | _ => .error .invalidTrailingPadding

/-- The bytes of the last group. -/
def final (group : List Item) : Except DecodeFault Bytes :=
  if 4 < group.length then do .ok ((← inner (group.take 4)) ++ (← last (group.drop 4))) else last group

/-- How many items a group has. -/
def groupSize : Nat := 8

/-- Reads bytes; `group` holds the items that were not turned into bytes yet. -/
def decodeIn (group : List Item) : Bytes → Except DecodeFault Bytes
  | [] => final group
  | c :: rest =>
    if isSpace c then decodeIn group rest
    else do
      let x ← item c
      if group.length = groupSize then
        let head ← inner group
        (decodeIn [x] rest).map (head ++ ·)
      else decodeIn (group ++ [x]) rest

/-- Reads bytes. -/
def decode (cs : Bytes) : Except DecodeFault Bytes := decodeIn [] cs

/-- Writes bytes. -/
def encode : Bytes → Bytes
  | a :: b :: c :: rest =>
    let n := (a.toNat * 256 + b.toNat) * 256 + c.toNat
    letter (n / 262144) :: letter (n / 4096 % 64) :: letter (n / 64 % 64) :: letter (n % 64) :: encode rest
  | [a, b] =>
    let n := (a.toNat * 256 + b.toNat) * 4
    [letter (n / 4096), letter (n / 64 % 64), letter (n % 64), filling]
  | [a] =>
    let n := a.toNat * 16
    [letter (n / 64), letter (n % 64), filling, filling]
  | [] => []

end Conduit.Base64
