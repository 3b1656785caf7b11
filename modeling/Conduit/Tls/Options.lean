import Conduit.Halt
import Conduit.Text.Quoted
import Conduit.Text.Toml
import Conduit.Tls.ConfigFault
import Conduit.Tls.ServerName

/-!
# Options of a TLS configuration

* `Options.invalid?`: the first rule that the options break, if any.
* `Options.read`: options as they are written in a settings file.
-/

namespace Conduit.Tls

/-- The settings that a TLS layer and its engines follow. -/
structure Options where
  /-- The most plaintext handed up at once. -/
  rxChunkSize : Nat := 1536
  /-- How many sessions are kept for resumption; none are with 0. -/
  sessionCacheEntries : Nat := 30
  /-- Application protocols in order of preference. -/
  alpnProtocols : List String := []
  /-- The name a client asks for when the caller gives none. -/
  serverName : Option String := none
  deriving DecidableEq, Repr, Inhabited

namespace Options

/-- The most plaintext of one record. -/
def maxPlaintext : Nat := 16384

/-- The first broken rule, in words. -/
def invalid? (o : Options) : Option String :=
  if o.rxChunkSize = 0 then some "rx_chunk_size must be positive"
  else if maxPlaintext < o.rxChunkSize then some "rx_chunk_size exceeds one tls record"
  else if o.alpnProtocols.any fun p => p.isEmpty || 255 < p.utf8ByteSize then
    some "alpn protocol names must be 1..=255 bytes"
  else if (o.serverName.map ServerName.parse?) = some none then
    some "server_name is not a valid dns name or ip"
  else none

/-- The options, if they break no rule. -/
def check (o : Options) : Except ConfigFault Options :=
  match o.invalid? with
  | some rule => .error (.invalid rule)
  | none => .ok o

/-- Options from the pairs of a settings file; what is not set has its standard value. -/
def ofPairs? (ps : List (String × Toml.Value)) : Option Options := do
  if Toml.knows ps ["rx_chunk_size", "session_cache_entries", "alpn_protocols", "server_name"] then
    let d : Options := {}
    let rxChunkSize ← Toml.natural? ps "rx_chunk_size" wordBound d.rxChunkSize
    let sessionCacheEntries ← Toml.natural? ps "session_cache_entries" wordBound d.sessionCacheEntries
    let alpnProtocols ← match ps.lookup "alpn_protocols" with
      | none => some d.alpnProtocols
      | some (.texts l) => some l
      | some _ => none
    let serverName ← match ps.lookup "server_name" with
      | none => some d.serverName
      | some (.text s) => some (some s)
      | some _ => none
    some { rxChunkSize, sessionCacheEntries, alpnProtocols, serverName }
  else none

/-- Reads options and checks them. -/
def read (text : String) : Except ConfigFault Options :=
  match (Toml.parse? text).bind ofPairs? with
  | none => .error .toml
  | some o => o.check

/-- The options in diagnostics. -/
def debugText (o : Options) : String :=
  Text.recordText "TlsOptions" [
    ("rx_chunk_size", toString o.rxChunkSize),
    ("session_cache_entries", toString o.sessionCacheEntries),
    ("alpn_protocols", Text.listText (o.alpnProtocols.map Text.quote)),
    ("server_name", Text.optionText (o.serverName.map Text.quote))]

end Options

end Conduit.Tls
