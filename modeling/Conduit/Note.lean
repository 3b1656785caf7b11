import Conduit.Event

/-!
# Notes

Structured log lines. A note plays no part in what connections do; it is handed to the application's memory in the
order in which it was written.
-/

namespace Conduit

/-- How much a note matters. -/
inductive Level
  | trace | debug | info | warn | error
  deriving DecidableEq, Repr

/-- The word for a level. -/
def Level.label : Level → String
  | .trace => "TRACE"
  | .debug => "DEBUG"
  | .info => "INFO"
  | .warn => "WARN"
  | .error => "ERROR"

/-- A message with named fields. -/
structure Note where
  level : Level
  message : String
  fields : List (String × String)
  deriving DecidableEq, Repr

namespace Note

/-- A line for following each step. -/
def trace (message : String) (fields : List (String × String)) : Note := ⟨.trace, message, fields⟩

/-- A line for finding faults. -/
def debug (message : String) (fields : List (String × String)) : Note := ⟨.debug, message, fields⟩

/-- A line about something unwanted. -/
def warn (message : String) (fields : List (String × String)) : Note := ⟨.warn, message, fields⟩

/-- A line about a broken rule. -/
def error (message : String) (fields : List (String × String)) : Note := ⟨.error, message, fields⟩

end Note

/-- The field that names a connection. -/
def Handle.field (id : Handle) : String × String := ("conn", id.text)

/-- The field that holds the reason of a failure. -/
def Fault.field (f : Fault) : String × String := ("error", f.message)

end Conduit
