import Conduit.Halt
import Conduit.Layer.Context

/-!
# Slots

The connections of a stack live in numbered slots. A slot that is vacated is used again under a new generation, so a
handle of an earlier tenant names nothing.

* `Slots.find?`: what a handle names.
* `Slots.insert`, `Slots.vacate`: a connection comes, a connection goes.
* `Slots.enqueue`: an event waits for delivery; where an `error` goes is settled at once, because its source is about
  to be vacated.
-/

namespace Conduit

/-- The callbacks that an application may register. -/
inductive CallbackKind
  | accept | connected | recv | sent | poll | err
  deriving DecidableEq, Repr

/-- The callbacks of a connection. -/
structure Callbacks (C : Type) where
  accept : Option C := none
  connected : Option C := none
  recv : Option C := none
  sent : Option C := none
  poll : Option C := none
  err : Option C := none

namespace Callbacks

variable {C : Type}

/-- The callback of a kind. -/
def get (c : Callbacks C) : CallbackKind → Option C
  | .accept => c.accept
  | .connected => c.connected
  | .recv => c.recv
  | .sent => c.sent
  | .poll => c.poll
  | .err => c.err

/-- Sets the callback of a kind. -/
def set (c : Callbacks C) (k : CallbackKind) (v : Option C) : Callbacks C :=
  match k with
  | .accept => { c with accept := v }
  | .connected => { c with connected := v }
  | .recv => { c with recv := v }
  | .sent => { c with sent := v }
  | .poll => { c with poll := v }
  | .err => { c with err := v }

end Callbacks

/-- A connection. -/
structure Entry (H : Host) where
  /-- Absent while the layer runs. -/
  layer : Option (Layer H)
  name : String
  inner : Option Handle := none
  outer : Option Handle := none
  callbacks : Callbacks H.Code := {}
  /-- How often the callbacks were cleared. -/
  epoch : Nat := 0
  pollInterval : Nat := 0

/-- A slot and its present tenant. -/
structure Slot (H : Host) where
  generation : Nat := 0
  entry : Option (Entry H) := none

/-- Where an event goes. -/
inductive Route (C : Type)
  /-- To whoever is above the source when it is delivered. -/
  | resolve
  | layer (outer : Handle)
  /-- To the callback that the application had registered, if any. -/
  | sink (code : Option C)

/-- An event that waits for delivery. -/
structure Queued (H : Host) where
  source : Handle
  event : Event
  route : Route H.Code

/-- The connections, and the events on their way. -/
structure Slots (H : Host) where
  slots : Array (Slot H) := #[]
  /-- The vacant slots, the one to be used next in front. -/
  free : List Nat := []
  /-- Events in the order in which they were emitted. -/
  queue : List (Queued H) := []
  /-- How many layers are running. -/
  depth : Nat := 0
  /-- Whether events are being delivered. -/
  pumping : Bool := false
  /-- How many connections there are. -/
  live : Nat := 0

/-- Generations and epochs are counted in 32 bits and start over. -/
def nextGeneration (g : Nat) : Nat := (g + 1) % 2 ^ 32

namespace Slots

variable {H : Host}

/-- What a handle names. -/
def find? (s : Slots H) (id : Handle) : Option (Entry H) :=
  match s.slots[id.index]? with
  | some slot => if slot.generation = id.generation then slot.entry else none
  | none => none

/-- Whether a handle names a connection. -/
def isAlive (s : Slots H) (id : Handle) : Bool := (s.find? id).isSome

/-- Changes a connection; a handle that names none changes nothing. -/
def update (s : Slots H) (id : Handle) (f : Entry H → Entry H) : Slots H :=
  { s with slots := s.slots.modify id.index fun slot =>
      if slot.generation = id.generation then { slot with entry := slot.entry.map f } else slot }

/-- The connection below. -/
def inner? (s : Slots H) (id : Handle) : Option Handle := (s.find? id).bind (·.inner)

/-- The connection above. -/
def outer? (s : Slots H) (id : Handle) : Option Handle := (s.find? id).bind (·.outer)

/-- The handle of the next connection. -/
def nextHandle (s : Slots H) : Handle :=
  match s.free with
  | i :: _ => ⟨i, (s.slots[i]?.map (·.generation)).getD 0⟩
  | [] => ⟨s.slots.size, 0⟩

/-- Adds a connection. -/
def insert (s : Slots H) (name : String) (layer : Layer H) : Slots H :=
  let e : Entry H := { layer := some layer, name }
  match s.free with
  | i :: rest =>
    { s with slots := s.slots.modify i fun slot => { slot with entry := some e }, free := rest, live := s.live + 1 }
  | [] => { s with slots := s.slots.push { entry := some e }, live := s.live + 1 }

/-- Puts one connection above another. -/
def link (s : Slots H) (inner outer : Handle) : Slots H :=
  (s.update outer fun e => { e with inner := some inner }).update inner fun e => { e with outer := some outer }

/-- Takes a connection out of its slot. -/
def vacate (s : Slots H) (id : Handle) : Slots H :=
  { s with
    slots := s.slots.modify id.index fun _ => { generation := nextGeneration id.generation }
    free := id.index :: s.free
    live := s.live - 1 }

/-- Forgets all callbacks of a connection. -/
def clearCallbacks (s : Slots H) (id : Handle) : Slots H :=
  s.update id fun e => { e with callbacks := {}, epoch := nextGeneration e.epoch }

/-- Takes a callback away. -/
def takeCallback (s : Slots H) (id : Handle) (k : CallbackKind) : Slots H :=
  s.update id fun e => { e with callbacks := e.callbacks.set k none }

/-- Puts a callback back, unless another was registered or all were cleared since. -/
def restoreCallback (s : Slots H) (id : Handle) (k : CallbackKind) (epoch : Nat) (code : H.Code) : Slots H :=
  s.update id fun e =>
    if e.epoch = epoch && (e.callbacks.get k).isNone then { e with callbacks := e.callbacks.set k (some code) } else e

/-- Lets an event wait for delivery. An `error` of no connection is lost; that of a connection takes the callback
along. -/
def enqueue (s : Slots H) (source : Handle) (event : Event) : Slots H :=
  match event with
  | .error _ =>
    match s.find? source with
    | none => s
    | some e =>
      match e.outer with
      | some outer => { s with queue := s.queue ++ [⟨source, event, .layer outer⟩] }
      | none =>
        let s := s.takeCallback source .err
        { s with queue := s.queue ++ [⟨source, event, .sink e.callbacks.err⟩] }
  | _ => { s with queue := s.queue ++ [⟨source, event, .resolve⟩] }

end Slots

end Conduit
