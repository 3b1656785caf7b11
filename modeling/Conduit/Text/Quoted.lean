import Conduit.Text.Hidden

/-!
# Quoted text

The text of a string value in diagnostics: between double quotes, with backslash escapes for the quote, the
backslash and the usual controls, and `\u` with hexadecimal digits in braces for what has no glyph of its own.

* `quote`: the quoted form.
* `listText`, `optionText`: lists in brackets, optional values as `Some(…)` or `None`.
-/

namespace Conduit.Text

/-- How one character is written inside quotes. -/
def quoteChar (c : Char) : String :=
  if c = '\t' then "\\t"
  else if c = '\r' then "\\r"
  else if c = '\n' then "\\n"
  else if c = '\x00' then "\\0"
  else if c = '\\' then "\\\\"
  else if c = '"' then "\\\""
  else if isHidden c then "\\u\x7b" ++ String.ofList (Nat.toDigits 16 c.toNat) ++ "\x7d"
  else c.toString

/-- A string between quotes. -/
def quote (s : String) : String := "\"" ++ String.join (s.toList.map quoteChar) ++ "\""

/-- Items in brackets. -/
def listText (items : List String) : String := "[" ++ ", ".intercalate items ++ "]"

/-- An optional value. -/
def optionText : Option String → String
  | none => "None"
  | some s => "Some(" ++ s ++ ")"

/-- A record: its name and its fields in order. -/
def recordText (name : String) (fields : List (String × String)) : String :=
  name ++ " \x7b " ++ ", ".intercalate (fields.map fun (k, v) => k ++ ": " ++ v) ++ " \x7d"

/-- The word for a truth value. -/
def boolText (b : Bool) : String := if b then "true" else "false"

end Conduit.Text
