import Conduit.Stack.World

/-!
# TLS connections

How an application puts TLS on a connection.

* `Tls.wrap`: TLS over a connection that is there.
* `Tls.open`: TLS over a fresh connection to an endpoint; when TLS refuses, nothing is left.
-/

namespace Conduit.Tls

variable {H : Host} {m : Type → Type} [Monad m] (ask : (r : Stack.Req H) → m r.Ans)

/-- Puts TLS over a connection. -/
def wrap (config : Config H.Source) (inner : Handle) (name : Option String) : m (Except Fault Handle) := do
  match ← Layer.create (fun c n => ask (.newEngine c n)) config name with
  | .error f => pure (.error f)
  | .ok layer => ask (.wrap inner (.secure layer))

/-- Opens a connection over an endpoint and puts TLS over it. -/
def openConn (config : Config H.Source) (p : PcbRef H.Pcb) : m (Except Fault Handle) := do
  let inner ← ask (.openPcb p)
  match ← wrap ask config inner none with
  | .ok id => pure (.ok id)
  | .error f =>
    ask (.note (.debug "tls layer refused, aborting tcp connection" [inner.field, f.field]))
    ask (.ask inner .abort)
    pure (.error f)

end Conduit.Tls
