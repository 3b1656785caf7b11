import Conduit.Note
import Conduit.Program
import Conduit.Tls.Options

/-!
# TLS engines

An engine turns plaintext into records and back. It never touches the network: it is a program over record I/O
(`recordIo`), which looks at the ciphertext that has arrived, takes some of it, and pushes its own.

* `EngineOps`: what an engine can do.
-/

namespace Conduit.Tls

/-- What an engine may ask while it runs. `V` is what the engines of one process share. -/
inductive RecordReq (V : Type)
  /-- How many bytes have arrived and are not yet taken. -/
  | available
  /-- The first bytes, at most `n`, which stay where they are. -/
  | peek (n : Nat)
  /-- The first bytes, at most `n`, which are taken away. -/
  | pull (n : Nat)
  /-- Sends bytes; the answer says how many were accepted, 0 when there is no room. -/
  | push (data : Bytes)
  | note (n : Note)
  | shared
  | setShared (v : V)

/-- What each request of an engine is answered with. -/
@[reducible] def RecordReq.Ans {V : Type} : RecordReq V → Type
  | .available => Nat
  | .peek _ | .pull _ => Bytes
  | .push _ => Except Fault Nat
  | .note _ | .setShared _ => Unit
  | .shared => V

/-- The interface between an engine and its connection. -/
@[reducible] def recordIo (V : Type) : Interface := ⟨RecordReq V, RecordReq.Ans⟩

/-- What an engine does while it is connected. -/
abbrev EngineAct (V α : Type) := Program (recordIo V) α

/-- How far a handshake has come. -/
inductive Progress
  | inProgress | done
  deriving DecidableEq, Repr

/-- What a decryption yields. -/
inductive Decrypted
  /-- Plaintext, at most as much as was asked for, never none. -/
  | data (plain : Bytes)
  /-- No whole record is there. -/
  | wouldBlock
  /-- The peer has said that it sends no more. -/
  | peerClosed
  deriving DecidableEq, Repr

/-- What was agreed in the handshake. -/
structure SessionInfo where
  version : Option String := none
  suite : Option String := none
  alpn : Option Bytes := none
  /-- For a server the name the client sent, for a client the name it asked for. -/
  serverName : Option String := none
  done : Bool := false
  deriving DecidableEq, Repr, Inhabited

/-- What an engine of type `E` can do. -/
structure EngineOps (E V : Type) where
  isHandshaking : E → Bool
  /-- Takes the handshake as far as the records that have arrived allow. -/
  handshake : E → EngineAct V (E × Except Fault Progress)
  /-- Yields at most `n` bytes of plaintext. -/
  decrypt : E → (n : Nat) → EngineAct V (E × Except Fault Decrypted)
  /-- Queues plaintext for sending; answers how much was taken. -/
  encrypt : E → Bytes → E × Except Fault Nat
  /-- Sends what is queued; answers whether all of it could be sent. -/
  flush : E → EngineAct V (E × Except Fault Bool)
  wantsWrite : E → Bool
  /-- Plaintext of the last record that has not been read yet. -/
  buffered : E → Nat
  /-- Queues the notice that no more will be sent. -/
  closeNotify : E → E
  info : E → SessionInfo

end Conduit.Tls
