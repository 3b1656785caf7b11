import Conduit.Halt
import Conduit.Text.Toml

/-!
# Options of the loopback net

* `Options.invalid?`: the first rule that the options break, if any.
* `Options.read`: options as they are written in a settings file.
-/

namespace Conduit.Loopback

/-- The settings of a loopback net. -/
structure Options where
  /-- The most data of one segment. -/
  mss : Nat := 1460
  /-- How much an endpoint holds that is not sent yet. -/
  sndbuf : Nat := 8192
  /-- How much an endpoint may be sent before it acknowledges. -/
  window : Nat := 65535
  deriving DecidableEq, Repr, Inhabited

/-- The first broken rule, in words. -/
def Options.invalid? (o : Options) : Option String :=
  if o.mss = 0 then some "mss must be positive"
  else if o.sndbuf = 0 then some "sndbuf must be positive"
  else if o.window = 0 then some "window must be positive"
  else none

/-- Why options cannot be read. -/
inductive OptionsFault
  /-- The text is no settings file, or one with other settings. -/
  | toml
  | invalid (rule : String)
  deriving DecidableEq, Repr

/-- The text shown to a person. -/
def OptionsFault.message : OptionsFault → String
  | .toml => "回环引擎配置解析失败："
  | .invalid rule => "回环引擎配置非法：" ++ rule

/-- Options from the pairs of a settings file; what is not set has its standard value. -/
def Options.ofPairs? (ps : List (String × Toml.Value)) : Option Options := do
  if Toml.knows ps ["mss", "sndbuf", "window"] then
    let d : Options := {}
    let mss ← Toml.natural? ps "mss" 65536 d.mss
    let sndbuf ← Toml.natural? ps "sndbuf" wordBound d.sndbuf
    let window ← Toml.natural? ps "window" wordBound d.window
    some { mss, sndbuf, window }
  else none

/-- Reads options and checks them. -/
def Options.read (text : String) : Except OptionsFault Options :=
  match (Toml.parse? text).bind ofPairs? with
  | none => .error .toml
  | some o =>
    match o.invalid? with
    | some rule => .error (.invalid rule)
    | none => .ok o

end Conduit.Loopback
