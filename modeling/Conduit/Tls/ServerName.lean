import Conduit.Address

/-!
# Server names

The name a client asks for: a DNS name or an address.

* `isDnsName`: 1 to 253 characters; labels of 1 to 63 letters, digits, hyphens and underscores between dots, no
  hyphen at either end of a label; one trailing dot is allowed; the last label is not a number.
-/

namespace Conduit.Tls

/-- The name a client asks for. -/
inductive ServerName
  | dns (name : String)
  | ip (addr : Ip)
  deriving DecidableEq, Repr

/-- A character of a label. -/
def isLabelChar (c : Char) : Bool := c.isAlphanum || c = '-' || c = '_'

/-- A label of a DNS name. -/
def isLabel (l : List Char) : Bool :=
  !l.isEmpty && l.length ≤ 63 && l.all isLabelChar && l.head? ≠ some '-' && l.getLast? ≠ some '-'

/-- Whether a text is a DNS name. -/
def isDnsName (cs : List Char) : Bool :=
  let parts := Ip.splitAt '.' cs
  let labels := if parts.getLast? = some [] then parts.dropLast else parts
  !labels.isEmpty && cs.length ≤ 253 && labels.all isLabel &&
    !((labels.getLast?.getD []).all Char.isDigit)

namespace ServerName

/-- Reads a server name. -/
def parse? (s : String) : Option ServerName :=
  if isDnsName s.toList then some (.dns s) else (Ip.parse? s).map .ip

/-- The text of a server name. -/
def text : ServerName → String
  | .dns name => name
  | .ip a => a.text

/-- The text by which names are compared: small and capital letters are the same. -/
def key (n : ServerName) : String := String.ofList (n.text.toList.map Char.toLower)

end ServerName

end Conduit.Tls
