import Conduit.Tls.Engine
import Conduit.Tls.Sized.Exchange
import Conduit.Tls.Sized.Message
import Conduit.Tls.Sized.Pool
import Conduit.Tls.Sized.Wire

/-!
# The state of an engine

What an engine remembers, and the language in which its answers to messages are written.

* `Engine`: the state; `Engine.send`: queues a record, sealed once that has begun.
* `Turn`: what an answer may do: change the engine and what it shares, and fail, before or after an alert.
-/

namespace Conduit.Tls.Sized

/-- What an engine waits for. -/
inductive Stage
  /-- A server waits for a client's first message. -/
  | clientHello
  /-- A server of the older version waits for the client's half of the exchange. -/
  | clientKeyExchange
  /-- A server of the newer version waits for the client's last message. -/
  | clientFinished
  /-- A client waits for a server's first message. -/
  | serverHello
  /-- A client of the newer version waits for what was agreed beside the keys. -/
  | encryptedExtensions
  /-- A client waits for the server's certificates. -/
  | certificate
  /-- A client of the newer version waits for the server's signature. -/
  | certificateVerify
  /-- A client of the older version waits for the server's half of the exchange. -/
  | serverKeyExchange
  /-- The same, when something about the certificate may come before. -/
  | certificateStatus
  /-- A client of the older version waits for the end of the server's flight. -/
  | serverHelloDone
  /-- A client of the older version waits for a ticket. -/
  | ticket
  /-- Either side of the older version waits for the other to begin sealing. -/
  | changeCipher
  /-- The other end's last message is awaited. -/
  | finished
  | traffic
  deriving DecidableEq, Repr

/-- A server's half of an exchange with its signature. -/
structure SignedHalf where
  parameters : Bytes
  group : Nat
  half : Bytes
  scheme : Nat
  signature : Bytes
  deriving Repr

/-- What an engine remembers of the handshake. -/
structure Talk where
  /-- All messages so far. -/
  transcript : Bytes := []
  clientRandom : Bytes := []
  serverRandom : Bytes := []
  /-- A client's first message. -/
  hello : Option ClientHello := none
  /-- The session that a client offers to take up again. -/
  offered : Option Session := none
  /-- Whether another first message was asked for. -/
  retried : Bool := false
  /-- The suite that was chosen before another first message was asked for. -/
  chosen : Option Suite := none
  /-- Whether a client had offered tickets when another first message was asked for. -/
  ticketsBefore : Bool := false
  /-- Whether sealing was announced. -/
  announced : Bool := false
  group : Group := .x25519
  /-- The own half of the exchange. -/
  half : Bytes := []
  /-- Whether the keys depend on all messages before the exchange. -/
  extended : Bool := false
  resumed : Bool := false
  /-- Whether a server leaves tickets. -/
  leavesTickets : Bool := true
  /-- The name of a session of the older version. -/
  sessionId : Bytes := []
  /-- The other end's certificates. -/
  chain : List Bytes := []
  signed : Option SignedHalf := none
  /-- Whether a ticket of the older version was announced. -/
  ticketComes : Bool := false
  /-- Whether something about the certificate was announced. -/
  statusComes : Bool := false
  /-- Whether a client was asked for a certificate. -/
  certificateAsked : Bool := false
  deriving Repr

/-- An engine. -/
structure Engine where
  profile : Profile
  /-- The number of its profile. -/
  origin : Nat
  /-- Whom a client asks for. -/
  requested : Option ServerName := none
  stage : Stage
  version : Option Version := none
  suite : Option Suite := none
  talk : Talk := {}
  /-- What stands for the keys. -/
  key : UInt64 := Checksum.basis
  /-- Whether what it sends is sealed. -/
  sealing : Bool := false
  /-- Whether what it receives must be sealed. -/
  unsealing : Bool := false
  sent : Nat := 0
  received : Nat := 0
  alpn : Option Bytes := none
  /-- The domain that a server was asked for. -/
  domain : Option String := none
  /-- Bytes of records that were taken and are not done with. -/
  backlog : Nat := 0
  /-- Bytes of handshake messages that were not answered yet. -/
  pending : Bytes := []
  /-- Whether they are in the form of the newer version. -/
  pendingNewer : Bool := false
  /-- Records to be sent. -/
  out : List Bytes := []
  /-- Plaintext that waits for the handshake. -/
  early : List Bytes := []
  plain : Bytes := []
  /-- Whether a last alert was sent. -/
  ended : Bool := false
  peerClosed : Bool := false
  failure : Option Failure := none
  /-- How many more warnings are taken. -/
  warnings : Nat := 4
  /-- How many more idle records are taken. -/
  idle : Nat := 2
  /-- How many empty records have come one after another. -/
  empties : Nat := 0
  /-- How many more bytes of early data a server passes over, if a client offered any. -/
  ignorable : Option Nat := none
  /-- The sizes of records that were passed over and that still wait for one that is taken. -/
  passedOver : List Nat := []

namespace Engine

/-- Whether the handshake is not complete. -/
def isHandshaking (e : Engine) : Bool := e.stage ≠ .traffic

/-- Whether the newer version was agreed. -/
def isNewer (e : Engine) : Bool := e.version = some .newer

/-- Whether it knows the newer version. -/
def knowsNewer (e : Engine) : Bool := !e.profile.olderOnly

/-- How records in one direction are protected. -/
def protection (e : Engine) (fromServer : Bool) (count : Nat) : Wire.Protection :=
  ⟨e.isNewer, e.key, fromServer, count, (e.suite.map (·.lead)).getD 0⟩

/-- Queues a record, sealed once that has begun. -/
def send (e : Engine) (type : UInt8) (data : Bytes) : Engine :=
  if e.sealing then
    { e with
      out := e.out ++ [Wire.sealed (e.protection e.profile.isServer e.sent) type data]
      sent := e.sent + 1 }
  else { e with out := e.out ++ [Wire.record type data] }

/-- Queues bytes of a type in as many records as they need. -/
def sendAll (e : Engine) (type : UInt8) (data : Bytes) : Engine :=
  (Wire.fragments data).foldl (fun e piece => e.send type piece) e

/-- Adds to the messages so far. -/
def note (e : Engine) (messages : Bytes) : Engine :=
  { e with talk := { e.talk with transcript := e.talk.transcript ++ messages } }

/-- Queues handshake messages. -/
def say (e : Engine) (messages : Bytes) : Engine := (e.note messages).sendAll 22 messages

/-- Queues the record that announces sealing, or stands for it. -/
def announce (e : Engine) : Engine :=
  { e with out := e.out ++ [Wire.record 20 [1]], talk := { e.talk with announced := true } }

/-- Gives up: the peer is told by an alert. -/
def give (e : Engine) (a : Alert) : Engine := { (e.send 21 [2, a.code]) with ended := true }

/-- The handshake is complete: plaintext that waited is sent. -/
def begin (e : Engine) : Engine :=
  e.early.foldl (fun e data => e.sendAll 23 data) { e with stage := .traffic, early := [] }

/-- The protocols that an engine offers or accepts. -/
def protocols (e : Engine) : List Bytes := e.profile.alpn.map fun p => p.toUTF8.toList

/-- How many bytes the hash of the suite has. -/
def hashSize (e : Engine) : Nat := (e.suite.map (·.hash)).getD 0

/-- What stands for the keys, from what the two halves have in common. -/
def agreedKey (e : Engine) (common : Bytes) : UInt64 :=
  let about :=
    if e.isNewer || e.talk.extended then e.talk.transcript else e.talk.clientRandom ++ e.talk.serverRandom
  Checksum.add (Checksum.ofBytes common) about

/-- The proof, in the last message of one end, that it has seen the same messages. -/
def proof (e : Engine) (fromServer : Bool) : Bytes :=
  Checksum.digest (if e.isNewer then e.hashSize else 12)
    [Checksum.bytes8 e.key, [if fromServer then 1 else 0], e.talk.transcript]

/-- The last message of the own end. -/
def lastMessage (e : Engine) : Bytes := Message.frame 20 (e.proof e.profile.isServer)

end Engine

/-- An engine and what it shares with others. -/
structure Seat where
  engine : Engine
  pool : Pool

/-- What an answer to a message does. What was done before a failure stays done. -/
abbrev Turn := ExceptT Failure (StateM Seat)

namespace Turn

/-- The engine. -/
def engine : Turn Engine := do pure (← get).engine

/-- Changes the engine. -/
def change (f : Engine → Engine) : Turn Unit := modify fun s => { s with engine := f s.engine }

/-- Changes what is remembered of the handshake. -/
def remember (f : Talk → Talk) : Turn Unit := change fun e => { e with talk := f e.talk }

/-- Waits for something else. -/
def await (stage : Stage) : Turn Unit := change fun e => { e with stage }

/-- Changes what is shared. -/
def share {α : Type} (f : Pool → α × Pool) : Turn α := do
  let s ← get
  let (a, pool) := f s.pool
  set { s with pool }
  pure a

/-- Bytes that were not used yet. -/
def fresh (size : Nat) : Turn Bytes := share (·.draw size)

/-- Fails, and tells the peer. -/
def refuse {α : Type} (a : Alert) (f : Failure) : Turn α := do
  change (·.give a)
  throw f

/-- A message that cannot be read. -/
def corrupt {α : Type} (c : Corruption) : Turn α := refuse c.alert c.failure

/-- The peer does what it should not. -/
def misbehaved {α : Type} (a : Alert) (how : String) : Turn α := refuse a (.peerMisbehaved how)

/-- The peer cannot do what it should. -/
def incompatible {α : Type} (a : Alert) (how : String) : Turn α := refuse a (.peerIncompatible how)

/-- A record of a kind that does not belong here. -/
def unexpected {α : Type} (got expected : String) : Turn α :=
  refuse .unexpectedMessage (.inappropriateMessage got expected)

/-- Keys may not change as long as anything is left of what came before. -/
def settled : Turn Unit := do
  if !(← engine).pending.isEmpty then misbehaved .unexpectedMessage "KeyEpochWithPendingFragment"

end Turn

end Conduit.Tls.Sized
