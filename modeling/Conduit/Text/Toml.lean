import Conduit.Power

/-!
# Settings files

The part of TOML that settings are written in: pairs of a key and a value, one on each line, where a value is an
integer, a string of one of the four kinds, or an array of strings. A text with anything else in it is refused.

* `Toml.parse?`: the pairs of a text in order; a key that comes twice is refused.
-/

namespace Conduit.Toml

/-- A value. -/
inductive Value
  | int (n : Int)
  | text (s : String)
  | texts (l : List String)
  deriving DecidableEq, Repr

/-- Blanks within a line. -/
def isBlank (c : Char) : Bool := c = ' ' || c = '\t'

/-- Drops blanks. -/
def skipBlanks (cs : List Char) : List Char := cs.dropWhile isBlank

/-- A character that may stand in a comment. -/
def isCommentChar (c : Char) : Bool := c = '\t' || (' ' ≤ c && c.toNat < 0x7F) || 0x80 ≤ c.toNat

/-- Drops a comment, if there is one. -/
def skipComment : List Char → List Char
  | '#' :: cs => cs.dropWhile isCommentChar
  | cs => cs

/-- Drops the end of a line. -/
def newline? : List Char → Option (List Char)
  | '\n' :: cs => some cs
  | '\r' :: '\n' :: cs => some cs
  | _ => none

/-- Drops what may follow a value on its line: blanks, a comment, the end of the line or of the text. -/
def lineEnd? (cs : List Char) : Option (List Char) :=
  match skipComment (skipBlanks cs) with
  | [] => some []
  | cs => newline? cs

/-- A character of a word without quotes. -/
def isWordChar (c : Char) : Bool := c.isAlphanum || c = '_' || c = '-'

/-- The value of a hexadecimal digit. -/
def digit? (c : Char) : Option Nat :=
  if c.isDigit then some (c.toNat - 48)
  else if 'a' ≤ c && c ≤ 'f' then some (c.toNat - 87)
  else if 'A' ≤ c && c ≤ 'F' then some (c.toNat - 55)
  else none

/-- The character of a code in hexadecimal digits. -/
def coded? (ds : List Char) : Option Char := do
  let n := (← ds.mapM digit?).foldl (fun n d => n * 16 + d) 0
  if n.isValidChar then some (Char.ofNat n) else none

/-- The character that a letter after a backslash stands for. -/
def escaped? : Char → Option Char
  | 'b' => some '\x08'
  | 't' => some '\t'
  | 'n' => some '\n'
  | 'f' => some '\x0c'
  | 'r' => some '\r'
  | '"' => some '"'
  | '\\' => some '\\'
  | _ => none

/-- A character that may stand between quotes as it is. -/
def isPlain (c : Char) : Bool := c = '\t' || (' ' ≤ c && c.toNat ≠ 0x7F)

/-- Puts a character in front of what was read. -/
def cons (c : Char) (r : List Char × List Char) : List Char × List Char := (c :: r.1, r.2)

/-- A string between double quotes, after the first of them: its characters and what follows it. -/
def basic? : List Char → Option (List Char × List Char)
  | '"' :: rest => some ([], rest)
  | '\\' :: 'u' :: a :: b :: c :: d :: rest => do
    let ch ← coded? [a, b, c, d]
    return cons ch (← basic? rest)
  | '\\' :: 'U' :: a :: b :: c :: d :: e :: f :: g :: h :: rest => do
    let ch ← coded? [a, b, c, d, e, f, g, h]
    return cons ch (← basic? rest)
  | '\\' :: c :: rest => do
    let ch ← escaped? c
    return cons ch (← basic? rest)
  | c :: rest => if isPlain c && c ≠ '\\' then (basic? rest).map (cons c) else none
  | [] => none

/-- A string between single quotes, after the first of them. -/
def literal? : List Char → Option (List Char × List Char)
  | '\'' :: rest => some ([], rest)
  | c :: rest => if isPlain c then (literal? rest).map (cons c) else none
  | [] => none

/-- The end of a string between triple quotes, after the three: up to two more quotes still belong to the string. -/
def closing (q : Char) : List Char → List Char × List Char
  | a :: b :: rest => if a = q then if b = q then ([q, q], rest) else ([q], b :: rest) else ([], a :: b :: rest)
  | [a] => if a = q then ([q], []) else ([], [a])
  | [] => ([], [])

/-- A string between triple double quotes, after the first three. While `folding`, blanks and ends of lines are dropped
that follow a backslash at the end of a line. -/
def basicLines? (folding : Bool) : List Char → Option (List Char × List Char)
  | '"' :: '"' :: '"' :: rest => some (closing '"' rest)
  | '\\' :: 'u' :: a :: b :: c :: d :: rest => do
    let ch ← coded? [a, b, c, d]
    return cons ch (← basicLines? false rest)
  | '\\' :: 'U' :: a :: b :: c :: d :: e :: f :: g :: h :: rest => do
    let ch ← coded? [a, b, c, d, e, f, g, h]
    return cons ch (← basicLines? false rest)
  | '\\' :: c :: rest =>
    match escaped? c with
    | some ch => (basicLines? false rest).map (cons ch)
    | none =>
      if (lineEnd? (skipBlanks (c :: rest))).isSome && (skipBlanks (c :: rest)).head? ≠ some '#' then
        basicLines? true (c :: rest)
      else none
  | '\r' :: '\n' :: rest => if folding then basicLines? true rest else (basicLines? false rest).map (cons '\n')
  | '\n' :: rest => if folding then basicLines? true rest else (basicLines? false rest).map (cons '\n')
  | c :: rest =>
    if folding && isBlank c then basicLines? true rest
    else if isPlain c && c ≠ '\\' then (basicLines? false rest).map (cons c)
    else none
  | [] => none

/-- A string between triple single quotes, after the first three. -/
def literalLines? : List Char → Option (List Char × List Char)
  | '\'' :: '\'' :: '\'' :: rest => some (closing '\'' rest)
  | '\r' :: '\n' :: rest => (literalLines? rest).map (cons '\n')
  | '\n' :: rest => (literalLines? rest).map (cons '\n')
  | c :: rest => if isPlain c then (literalLines? rest).map (cons c) else none
  | [] => none

/-- Drops the end of a line that directly follows triple quotes. -/
def skipFirstNewline (cs : List Char) : List Char := (newline? cs).getD cs

/-- A string of any kind, and what follows it. -/
def string? (cs : List Char) : Option (String × List Char) :=
  let read := match cs with
    | '"' :: '"' :: '"' :: rest => basicLines? false (skipFirstNewline rest)
    | '\'' :: '\'' :: '\'' :: rest => literalLines? (skipFirstNewline rest)
    | '"' :: rest => basic? rest
    | '\'' :: rest => literal? rest
    | _ => none
  read.map fun (s, rest) => (String.ofList s, rest)

/-- A key, and what follows it. -/
def key? (cs : List Char) : Option (String × List Char) :=
  match cs with
  | '"' :: rest => (basic? rest).map fun (s, rest) => (String.ofList s, rest)
  | '\'' :: rest => (literal? rest).map fun (s, rest) => (String.ofList s, rest)
  | _ =>
    let word := cs.takeWhile isWordChar
    if word.isEmpty then none else some (String.ofList word, cs.dropWhile isWordChar)

/-- Cuts digits at underscores; each piece must have a digit. -/
def pieces : List Char → List (List Char)
  | [] => [[]]
  | c :: rest =>
    match pieces rest with
    | [] => [[]]
    | p :: ps => if c = '_' then [] :: p :: ps else (c :: p) :: ps

/-- The value of digits in a base, with underscores between them. -/
def digits? (base : Nat) (cs : List Char) : Option Nat := do
  let ps := pieces cs
  if ps.any List.isEmpty then none
  else
    let ds ← ps.flatten.mapM digit?
    if ds.all (· < base) then some (ds.foldl (fun n d => n * base + d) 0) else none

/-- A decimal number has no leading zero. -/
def decimal? (cs : List Char) : Option Nat :=
  if cs.head? = some '0' && 1 < cs.length then none else digits? 10 cs

/-- An integer of 64 bits. -/
def int? (cs : List Char) : Option Int := do
  let n : Int ← match cs with
    | '0' :: 'x' :: rest => (digits? 16 rest).map Int.ofNat
    | '0' :: 'o' :: rest => (digits? 8 rest).map Int.ofNat
    | '0' :: 'b' :: rest => (digits? 2 rest).map Int.ofNat
    | '+' :: rest => (decimal? rest).map Int.ofNat
    | '-' :: rest => (decimal? rest).map fun n => -Int.ofNat n
    | _ => (decimal? cs).map Int.ofNat
  if -2 ^ 63 ≤ n && n < 2 ^ 63 then some n else none

/-- Drops blanks, comments and ends of lines; at most `k` lines. -/
def skipLines : Nat → List Char → List Char
  | 0, cs => cs
  | k + 1, cs =>
    let cs := skipComment (skipBlanks cs)
    match newline? cs with
    | some rest => skipLines k rest
    | none => cs

/-- The items of an array, at most `k`, after its bracket. -/
def items? : Nat → List Char → Option (List String × List Char)
  | 0, _ => none
  | k + 1, cs =>
    match skipLines cs.length cs with
    | ']' :: rest => some ([], rest)
    | cs => do
      let (s, rest) ← string? cs
      match skipLines rest.length rest with
      | ']' :: rest => some ([s], rest)
      | ',' :: rest =>
        let (l, rest) ← items? k rest
        some (s :: l, rest)
      | _ => none

/-- A character of a number. -/
def isNumberChar (c : Char) : Bool := c.isAlphanum || c = '_' || c = '+' || c = '-' || c = '.' || c = ':'

/-- A value, and what follows it. -/
def value? (cs : List Char) : Option (Value × List Char) :=
  match cs with
  | '"' :: _ | '\'' :: _ => (string? cs).map fun (s, rest) => (.text s, rest)
  | '[' :: rest => (items? cs.length rest).map fun (l, rest) => (.texts l, rest)
  | _ => (int? (cs.takeWhile isNumberChar)).map fun n => (.int n, cs.dropWhile isNumberChar)

/-- A pair, and what follows its line. -/
def pair? (cs : List Char) : Option ((String × Value) × List Char) := do
  let (k, rest) ← key? cs
  match skipBlanks rest with
  | '=' :: rest =>
    let (v, rest) ← value? (skipBlanks rest)
    let rest ← lineEnd? rest
    some ((k, v), rest)
  | _ => none

/-- The pairs of a text, at most `k`. -/
def pairs? : Nat → List Char → Option (List (String × Value))
  | 0, _ => none
  | k + 1, cs =>
    match skipBlanks (skipLines cs.length cs) with
    | [] => some []
    | cs => do
      let (p, rest) ← pair? cs
      let ps ← pairs? k rest
      if ps.any (·.1 == p.1) then none else some (p :: ps)

/-- The pairs of a text. A mark of the byte order may stand in front. -/
def parse? (s : String) : Option (List (String × Value)) :=
  let cs := match s.toList with
    | '\uFEFF' :: cs => cs
    | cs => cs
  pairs? (cs.length + 1) cs

/-- A setting that is a number below a bound; absent, it has its standard value. -/
def natural? (ps : List (String × Value)) (key : String) (bound standard : Nat) : Option Nat :=
  match ps.lookup key with
  | none => some standard
  | some (.int n) => if 0 ≤ n && n < (bound : Int) then some n.toNat else none
  | some _ => none

/-- Whether all keys are known. -/
def knows (ps : List (String × Value)) (keys : List String) : Bool := ps.all fun p => keys.contains p.1

end Conduit.Toml
