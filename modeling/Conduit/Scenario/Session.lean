import Conduit.Scenario.Perform

/-!
# Sessions

A scenario on a world of its own: one stack, one loopback net, the configurations it names.

* `behaviour`: callbacks, layers and endpoints that follow their rules.
* `Session.step`: performs one step; the answer holds what it answered and what happened.
-/

namespace Conduit.Scenario

/-- The way to the stack from outside and from callbacks. -/
def appPort : Port (Stack.Act stage) where
  ask r := Program.request (I := Stack.io stage) r

/-- The way to the stack from inside a scripted layer. -/
def layerPort : Port (Layer.CustomAct stage) where
  ask r := Program.request (I := Layer.customIo stage) (.inr r)
  layer := some fun r => Program.request (I := Layer.customIo stage) (.inl r)

/-- What the journal says of a call, and what the rule's steps may refer to. -/
def callLine (owner : Handle) : Call → Line × Scope
  | .accept me new => (.accept me new, { me, new })
  | .connected me r => (.connected me r, { me })
  | .recv me (some data) => (.recv me data, { me, len := data.length, data })
  | .recv me none => (.eof me, { me })
  | .sent me len => (.sent me len, { me, len })
  | .poll me => (.poll me, { me })
  | .err reason => (.err owner reason, { me := owner })

/-- The rule of a call, and the callback after it. -/
def Code.rule (c : Code) : Call → Rule × Code
  | .recv _ none => ((nth c.eofRules c.eofs).getD default, { c with eofs := c.eofs + 1 })
  | _ => ((nth c.rules c.calls).getD default, { c with calls := c.calls + 1 })

/-- Runs a callback by its rules. -/
def runCallback (c : Code) (call : Call) : Stack.Act stage (Code × Outcome) := do
  let (line, scope) := callLine c.owner call
  remember appPort (·.record line)
  let (rule, c) := c.rule call
  performRule appPort scope rule.steps
  pure (c, rule.ret.outcome)

/-- What the steps of a layer's rule may refer to. -/
def methodScope (me : Handle) : Method → Scope
  | .op (.lower (.accept new)) => { me, new }
  | .op (.lower (.recv data)) => { me, len := data.length, data }
  | .op (.lower (.sent len)) => { me, len }
  | .op (.write data _) => { me, len := data.length, data }
  | .op (.recved len) => { me, len }
  | _ => { me }

/-- Runs a method of a scripted layer. One without rules, or whose rule has no answer, does what a layer does that has
no mind of its own. -/
def runMock (l : MockLayer) (me : Handle) (m : Method) : Layer.CustomAct stage (MockLayer × m.Reply) := do
  match l.methods.find? (·.method == m.label) with
  | none => pure (l, ← Layer.customForward m)
  | some s =>
    remember layerPort (·.record (.call l.name me m))
    let rule := (nth s.rules s.calls).getD default
    let methods := l.methods.map fun s => if s.method == m.label then { s with calls := s.calls + 1 } else s
    performRule layerPort (methodScope me m) rule.steps
    let reply ← match rule.ret with
      | .absent => Layer.customForward m
      | r => pure (r.methodReply m)
    pure ({ l with methods }, reply)

/-- A new engine from the source of a configuration. -/
def newEngine (c : Tls.Config Source) (name : Option Tls.ServerName) (v : stage.Shared) :
    Except Fault Engine × stage.Shared :=
  match c.source with
  | .toy p => ((Tls.Toy.start p name).map .toy, v)
  | .sized config =>
    let (e, v) := Tls.Sized.start config name v
    (e.map .sized, v)

/-- What a scenario brings along. -/
def behaviour : Behaviour stage where
  callback := runCallback
  layer := runMock
  layerName l := l.name
  pcb := playPcb
  note := Memory.note
  engine := Engine.ops
  newEngine := newEngine

/-- The state of a session. -/
abbrev Session := World stage

namespace Session

/-- How deeply calls may nest, and how long loops may be. -/
def fuel : Nat := 2 ^ 40

/-- What a configuration of a session is built from. -/
inductive Recipe
  | toy (p : Tls.Toy.Profile)
  | sized (r : Tls.Sized.Recipe)

/-- Builds the configurations of a session. -/
def prepare : Tls.Sized.Pool → List (String × Recipe) →
    Except Tls.ConfigFault (List (String × Tls.Config Source) × Tls.Sized.Pool)
  | v, [] => .ok ([], v)
  | v, (name, .toy p) :: rest => do
    let (cs, v) ← prepare v rest
    .ok ((name, ⟨p.isServer, p.options, .toy p⟩) :: cs, v)
  | v, (name, .sized r) :: rest => do
    let profile ← r.build
    let (config, v) := v.add profile
    let (cs, v) ← prepare v rest
    .ok ((name, ⟨r.material.isServer, r.options, .sized config⟩) :: cs, v)

/-- A session before its first step. -/
def start (options : Loopback.Options) (recipes : List (String × Recipe)) (tracing : Bool) :
    Except Tls.ConfigFault Session := do
  let (configs, shared) ← prepare {} recipes
  .ok { net := { options }, shared, memory := { configs, tracing } }

/-- What one step shows. -/
structure Report where
  /-- Absent when the run could not go on. -/
  answer : Option Answer
  lines : List Line
  live : Nat

/-- Performs one step. -/
def step (w : Session) (s : Step) : Report × Session :=
  let w := { w with memory := { w.memory with journal := [] } }
  match Stack.run behaviour fuel (perform appPort {} s) w with
  | .ok answer w => (⟨some answer, w.memory.journal.reverse, w.stack.live⟩, w)
  | .error _ w => (⟨none, w.memory.journal.reverse, w.stack.live⟩, w)

/-- Performs steps in turn; nothing is performed after one that could not go on. -/
def run (w : Session) : List Step → List Report
  | [] => []
  | s :: rest =>
    let (r, w) := step w s
    if r.answer.isSome then r :: run w rest else [r]

end Session

end Conduit.Scenario
