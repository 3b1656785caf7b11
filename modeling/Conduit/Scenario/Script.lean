import Conduit.Loopback.Net
import Conduit.Stack.Slots

/-!
# Scripts

A script is a list of steps on a stack. Callbacks and layers of a script are lists of rules: the k-th call follows the
k-th rule, and the last rule stands for all further calls.

* `Label`: how a script names connections.
* `Step`, `Rule`: what it does.
* `Ret`: what a rule answers, to be read as the type that is asked for.
-/

namespace Conduit.Scenario

/-- How a script names a connection. -/
inductive Label
  | name (s : String)
  | inner (l : Label)
  | outer (l : Label)
  /-- The connection that a callback or a layer runs for. -/
  | me
  /-- The connection that was accepted. -/
  | new
  deriving DecidableEq, Repr

/-- Cuts words that each stand for one level off the front of a label. -/
def Label.ofParts : List String → Label
  | [] => .name ""
  | [s] => if s = "$" then .me else if s = "$new" then .new else .name s
  | s :: rest =>
    if s = "inner" then .inner (ofParts rest)
    else if s = "outer" then .outer (ofParts rest)
    else .name (":".intercalate (s :: rest))

/-- Reads a label. -/
def Label.ofString (s : String) : Label := .ofParts (s.splitOn ":")

/-- A length: a number, or that of the data at hand, and something to add. -/
structure Length where
  /-- Absent for the length of the data at hand. -/
  base : Option Nat
  add : Nat := 0
  deriving DecidableEq, Repr

/-- Bytes: given, or those at hand. -/
inductive Payload
  | bytes (b : Bytes)
  | atHand
  deriving DecidableEq, Repr

/-- What a rule answers. -/
inductive Ret
  | absent
  | null
  | text (s : String)
  | num (n : Nat)
  | flag (b : Bool)
  deriving DecidableEq, Repr

/-- An event that a script causes. -/
inductive EventSpec
  | accept (id : Label)
  | connected (r : Outcome)
  | recv (data : Payload)
  | eof
  | sent (len : Length)
  | poll
  | error (f : Fault)

/-- The endpoint that a script lets be accepted. -/
inductive Acceptee
  /-- One that the script holds. -/
  | held (name : String)
  /-- One that it plays itself. -/
  | played (name : String) (methods : List (String × List Ret))

/-- An operation of an endpoint that a script holds. -/
inductive HeldOp
  | bind (addr : Option Endpoint)
  | connect (addr : Option Endpoint)
  | listen (backlog : Nat)
  | write (data : Payload) (flags : WriteFlags)
  | output
  | recved (len : Length)
  | close
  | shutdown (dir : Direction)
  | abort
  | nagle (disable : Bool)
  | setPrio (prio : Nat)
  | pollInterval (interval : Nat)
  | attach (id : Label)
  | detach
  /-- Everything about it. -/
  | view

/-- Whom to connect to: the local address of a connection, if that is asked for and there is one, or else an address. -/
structure Target where
  localOf : Option Label
  addr : Option Endpoint

mutual

/-- A step on a connection. -/
inductive ConnStep
  | name (as : String)
  | id
  | wrap (as layer : String) (methods : List (String × List Rule))
  | wrapTls (config as : String) (name : Option String)
  | retune (methods : List (String × List Rule))
  | on (kind : CallbackKind) (interval : Nat) (rules eofRules : List Rule)
  | clear
  | setPollInterval (interval : Nat)
  | bind (addr : Option Endpoint)
  | connect (target : Target) (rules : Option (List Rule))
  | listen (backlog : Nat)
  | write (data : Payload) (flags : WriteFlags)
  | output
  | close
  | shutdown (dir : Direction)
  | recved (len : Length)
  | abort
  | inject (e : EventSpec)
  | dispatch (e : EventSpec)
  | dispatchAccept (who : Acceptee)
  | writeAll (data : Payload) (chunk : Nat) (flags : WriteFlags)
  | mss
  | sndbuf
  | sndqueuelen
  | nagle (disable : Bool)
  | setprio (prio : Nat)
  | addr (ofLocal : Bool)
  | tcpState
  | alive
  | layer
  | info
  | stats
  | pcbIndex
  | split (sizes : List Nat)
  | failCloses (count : Nat)
  | snap

/-- A step. -/
inductive Step
  | at (id : Label) (word : String) (s : ConnStep)
  | openConn (as : String)
  | raw (as : String)
  | adopt (pcb as : String)
  | play (as : String) (methods : List (String × List Ret))
  | mock (as layer : String) (methods : List (String × List Rule))
  | newTls (config as : String)
  | select (config as : String)
  | replace (config source : String)
  | configText (config : String)
  | len
  | isEmpty
  | debug
  | step
  | run
  | tick
  | statsAt (i : Nat)
  | options
  | eventText (e : EventSpec)
  | repeat (n : Nat) (steps : List Step)
  | pcb (name : String) (op : HeldOp)
  | emit (e : EventSpec)
  | release
  | fail (f : Fault)
  | cx
  | unknown (word : String)

/-- What one call of a callback or of a layer does. -/
inductive Rule
  | mk (steps : List Step) (ret : Ret)

end

/-- The steps of a rule. -/
def Rule.steps : Rule → List Step
  | .mk steps _ => steps

/-- The answer of a rule. -/
def Rule.ret : Rule → Ret
  | .mk _ ret => ret

instance : Inhabited Rule := ⟨.mk [] .absent⟩

/-- The word for a step. -/
def Step.word : Step → String
  | .at _ word _ => word
  | .openConn _ => "open"
  | .raw _ => "raw"
  | .adopt _ _ => "adopt"
  | .play _ _ => "mpcb"
  | .mock _ _ _ => "mock"
  | .newTls _ _ => "new_tls"
  | .select _ _ => "select"
  | .replace _ _ => "replace"
  | .configText _ => "cfg_debug"
  | .len => "len"
  | .isEmpty => "is_empty"
  | .debug => "debug"
  | .step => "step"
  | .run => "run"
  | .tick => "tick"
  | .statsAt _ => "stats_at"
  | .options => "options"
  | .eventText _ => "ev_debug"
  | .repeat _ _ => "repeat"
  | .pcb _ _ => "pcb"
  | .emit _ => "emit"
  | .release => "release"
  | .fail _ => "fail"
  | .cx => "cx"
  | .unknown word => word

/-- What the `k`-th call follows; with no item at all, nothing. -/
def nth {α : Type} (items : List α) (k : Nat) : Option α := items[min k (items.length - 1)]?

/-- Cuts a text at its first colon. -/
def cutAtColon (s : String) : String × String :=
  match s.splitOn ":" with
  | [] => ("", "")
  | n :: rest => (n, ":".intercalate rest)

/-- Reads a fault: its name, and its text after a colon. -/
def faultOfString (s : String) : Fault :=
  let (name, text) := cutAtColon s
  match name with
  | "InvalidArgument" => .invalidArgument
  | "InvalidState" => .invalidState text
  | "WouldBlock" => .wouldBlock
  | "OutOfMemory" => .outOfMemory
  | "Closed" => .closed
  | "Aborted" => .aborted
  | "Reset" => .reset
  | "Handshake" => .handshake text
  | "Tls" => .tls text
  | "Engine" => .engine text
  | _ => .internal text

/-- Reads an outcome. -/
def outcomeOfString (s : String) : Outcome := if s = "ok" then .ok () else .error (faultOfString s)

namespace Ret

/-- Read as an outcome. -/
def outcome : Ret → Outcome
  | .text s => outcomeOfString s
  | _ => .ok ()

/-- Read as a number. -/
def number : Ret → Nat
  | .num n => n
  | _ => 0

/-- Read as a truth value. -/
def truth : Ret → Bool
  | .flag b => b
  | _ => false

/-- Read as an address. -/
def address : Ret → Option Endpoint
  | .text s => Endpoint.parse? s
  | _ => none

/-- Read as a state. -/
def state : Ret → TcpState
  | .text s => (TcpState.ofLabel? s).getD .closed
  | _ => .closed

/-- Read as the reply to an operation on a connection. -/
def reply (r : Ret) : (o : Op) → o.Reply
  | .lower _ | .bind _ | .connect _ | .listen _ | .close | .shutdown _ | .write _ _ | .output => r.outcome
  | .setPoll _ | .recved _ | .abort | .setNagle _ | .setPrio _ => ()
  | .mss => r.number % 65536
  | .sndbuf | .sndqueuelen => r.number
  | .nagleDisabled => r.truth
  | .localAddr | .remoteAddr => r.address
  | .tcpState => r.state

/-- Read as the reply of a layer. -/
def methodReply (r : Ret) : (m : Method) → m.Reply
  | .op o => r.reply o
  | .settled _ | .dealloc => ()

/-- Read as the reply of an endpoint. -/
def pcbReply (r : Ret) : (o : PcbOp) → o.Reply
  | .bind _ | .connect _ | .listen _ | .write _ _ | .output | .close | .shutdown _ => r.outcome
  | .recved _ | .abort | .setNagle _ | .setPrio _ | .setPollInterval _ | .attach _ | .detach => ()
  | .mss => r.number % 65536
  | .sndbuf | .sndqueuelen => r.number
  | .nagleDisabled => r.truth
  | .localAddr | .remoteAddr => r.address
  | .state => r.state

end Ret

end Conduit.Scenario
