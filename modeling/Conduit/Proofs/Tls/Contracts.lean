import Conduit.Proofs.Tls.Works

/-!
# What is asked of an engine

The TLS layer is indifferent to the engine it drives, as long as that keeps to a contract. Each property of the layer
asks for the part of it that matters.

* `Frugal`: an engine yields no more plaintext than the ciphertext it takes.
* `Reads`: an engine reads its stream; `plain e c` is the plaintext that it makes of the ciphertext `c`.
* `Fruitful`, `Measured`, `Unmoved`: an engine yields no empty pieces and no larger ones than it is asked for, and reads
  on when no more is to be sent.
* `Retains`: an engine keeps what it has to send until it is accepted.
* `Exhausts`: an engine that finds nothing more to open has left no whole record.
* `Calms`: an engine reads to the end of a stream without having anything to send.
* `Couples`: two engines understand each other; decrypting what the one emits returns what it was given to encrypt.
-/

namespace Conduit.Tls

/-- The plaintext that a decryption has yielded. -/
def Decrypted.bytes : Decrypted → Bytes
  | .data text => text
  | .wouldBlock | .peerClosed => []

/-- Engines that account for what they take: of a record they yield no more plaintext than they took ciphertext, and
the handshake takes no plaintext. -/
structure Frugal {E V : Type} (ops : EngineOps E V) (good : E → Prop) : Prop where
  handshake : ∀ {e e' : E} {c c' : Bytes} {ps : List Push} {p : Progress}, good e →
    Works (ops.handshake e) c ps c' (e', .ok p) → good e' ∧ ops.buffered e' ≤ ops.buffered e
  decrypt : ∀ {e e' : E} {n : Nat} {c c' : Bytes} {ps : List Push} {r : Decrypted}, good e →
    Works (ops.decrypt e n) c ps c' (e', .ok r) →
    good e' ∧ r.bytes.length + ops.buffered e' + c'.length ≤ ops.buffered e + c.length
  flush : ∀ {e e' : E} {c c' : Bytes} {ps : List Push} {r : Except Fault Bool}, good e →
    Works (ops.flush e) c ps c' (e', r) → good e' ∧ ops.buffered e' ≤ ops.buffered e
  encrypt : ∀ {e : E} {data : Bytes}, good e →
    good (ops.encrypt e data).1 ∧ ops.buffered (ops.encrypt e data).1 ≤ ops.buffered e

/-- Engines that read a stream: `plain e c` is the plaintext of the whole records in `c`, up to the notice that no more
will come. -/
structure Reads {E V : Type} (ops : EngineOps E V) (good : E → Prop) (plain : E → Bytes → Bytes) : Prop where
  grows : ∀ e c x, plain e c <+: plain e (c ++ x)
  handshake : ∀ {e e' : E} {c c' : Bytes} {ps : List Push} {p : Progress}, good e →
    Works (ops.handshake e) c ps c' (e', .ok p) → good e' ∧ ∀ x, plain e (c ++ x) = plain e' (c' ++ x)
  data : ∀ {e e' : E} {n : Nat} {c c' : Bytes} {ps : List Push} {text : Bytes}, good e →
    Works (ops.decrypt e n) c ps c' (e', .ok (.data text)) →
    good e' ∧ ∀ x, plain e (c ++ x) = text ++ plain e' (c' ++ x)
  wouldBlock : ∀ {e e' : E} {n : Nat} {c c' : Bytes} {ps : List Push}, good e →
    Works (ops.decrypt e n) c ps c' (e', .ok .wouldBlock) →
    good e' ∧ plain e c = [] ∧ ∀ x, plain e (c ++ x) = plain e' (c' ++ x)
  peerClosed : ∀ {e e' : E} {n : Nat} {c c' : Bytes} {ps : List Push}, good e →
    Works (ops.decrypt e n) c ps c' (e', .ok .peerClosed) → ∀ x, plain e (c ++ x) = []
  flush : ∀ {e e' : E} {c c' : Bytes} {ps : List Push} {r : Except Fault Bool}, good e →
    Works (ops.flush e) c ps c' (e', r) → good e' ∧ ∀ x, plain e (c ++ x) = plain e' (c' ++ x)
  encrypt : ∀ {e : E} {data : Bytes}, good e →
    good (ops.encrypt e data).1 ∧ ∀ c, plain (ops.encrypt e data).1 c = plain e c

/-- Unless something was accepted, `e'` wants to write if `e` does. -/
structure Retained {E V : Type} (ops : EngineOps E V) (good : E → Prop) (ps : List Push) (e e' : E) : Prop where
  good : good e'
  wants : sent ps = [] → ops.wantsWrite e = true → ops.wantsWrite e' = true

/-- Engines that keep what they have to send until it is accepted, and that find no room only when there is something to
send. -/
structure Retains {E V : Type} (ops : EngineOps E V) (good : E → Prop) : Prop where
  handshake : ∀ {e e' : E} {c c' : Bytes} {ps : List Push} {p : Progress}, good e →
    Works (ops.handshake e) c ps c' (e', .ok p) → Retained ops good ps e e'
  decrypt : ∀ {e e' : E} {n : Nat} {c c' : Bytes} {ps : List Push} {r : Decrypted}, good e →
    Works (ops.decrypt e n) c ps c' (e', .ok r) → Retained ops good ps e e'
  flush : ∀ {e e' : E} {c c' : Bytes} {ps : List Push} {r : Except Fault Bool}, good e →
    Works (ops.flush e) c ps c' (e', r) →
    Retained ops good ps e e' ∧ (r = .ok false ∨ r = .error .wouldBlock → ops.wantsWrite e' = true)
  encrypt : ∀ {e : E} {data : Bytes}, good e → Retained ops good [] e (ops.encrypt e data).1 ∧
    ((ops.encrypt e data).2 = .error .wouldBlock → ops.wantsWrite (ops.encrypt e data).1 = true)
  closeNotify : ∀ {e : E}, good e → Retained ops good [] e (ops.closeNotify e)

/-- Engines that never yield an empty piece of plaintext. -/
def Fruitful {E V : Type} (ops : EngineOps E V) : Prop :=
  ∀ {e e' : E} {n : Nat} {c c' : Bytes} {ps : List Push} {text : Bytes}, 0 < n →
    Works (ops.decrypt e n) c ps c' (e', .ok (.data text)) → text ≠ []

/-- Engines that yield no larger piece of plaintext than they are asked for. -/
def Measured {E V : Type} (ops : EngineOps E V) : Prop :=
  ∀ {e e' : E} {n : Nat} {c c' : Bytes} {ps : List Push} {text : Bytes},
    Works (ops.decrypt e n) c ps c' (e', .ok (.data text)) → text.length ≤ n

/-- Engines that read on as before when they have queued the notice that no more will be sent. -/
def Unmoved {E V : Type} (ops : EngineOps E V) (good : E → Prop) (plain : E → Bytes → Bytes) : Prop :=
  ∀ {e : E}, good e → good (ops.closeNotify e) ∧ ∀ c, plain (ops.closeNotify e) c = plain e c

/-- Engines that open every whole record: `whole e c` says that `e` has a whole record in the ciphertext `c`. When one
finds nothing to open there is none, and sending brings none about. -/
structure Exhausts {E V : Type} (ops : EngineOps E V) (whole : E → Bytes → Prop) : Prop where
  decrypt : ∀ {e e' : E} {n : Nat} {c c' : Bytes} {ps : List Push},
    Works (ops.decrypt e n) c ps c' (e', .ok .wouldBlock) → ¬ whole e' c'
  flush : ∀ {e e' : E} {c c' : Bytes} {ps : List Push} {r : Except Fault Bool}, ¬ whole e c →
    Works (ops.flush e) c ps c' (e', r) → ¬ whole e' c'
  encrypt : ∀ {e : E} {data c : Bytes}, ¬ whole e c → ¬ whole (ops.encrypt e data).1 c
  closeNotify : ∀ {e : E} {c : Bytes}, ¬ whole e c → ¬ whole (ops.closeNotify e) c

/-- Engines that may be calm: `calm e c` says that `e` reads `c`, to its end, without having anything to send. -/
structure Calms {E V : Type} (ops : EngineOps E V) (calm : E → Bytes → Prop) : Prop where
  decrypt : ∀ {e e' : E} {n : Nat} {c c' x : Bytes} {ps : List Push} {r : Except Fault Decrypted}, calm e (c ++ x) →
    Works (ops.decrypt e n) c ps c' (e', r) → calm e' (c' ++ x) ∧ ∃ y, r = .ok y
  flush : ∀ {e e' : E} {c c' x : Bytes} {ps : List Push} {r : Except Fault Bool}, calm e (c ++ x) →
    Works (ops.flush e) c ps c' (e', r) → calm e' (c' ++ x)

/-- Each push of a run was answered with a number of bytes. -/
def Taken (ps : List Push) : Prop := ∀ x ∈ ps, ∃ n, x.answer = .ok n

/-- The last push of a run was not taken whole. -/
def Cramped (ps : List Push) : Prop := ∃ qs d n, ps = qs ++ [⟨d, .ok n⟩] ∧ n < d.length

/-- What there is to say of engines that work in pairs. -/
structure Coupling (E : Type) where
  /-- The ciphertext that an engine has ready to send. -/
  out : E → Bytes
  /-- The plaintext that an engine makes of a stream. -/
  plain : E → Bytes → Bytes
  /-- An engine finds no whole record in a stream, and holds no plaintext. -/
  waits : E → Bytes → Prop
  /-- In a stream there is the notice that no more will come. -/
  parted : E → Bytes → Prop
  /-- Two engines understand each other, when the one stream is on its way from the first to the second, from what the
  first has ready to what the second has not taken, and the other stream on its way back. -/
  joined : E → E → Bytes → Bytes → Prop
  /-- The size of the largest record. -/
  largest : Nat

/-- `e'` goes on for `e` in both directions, having added `r` to what it sends. -/
structure Coupling.Same {E V : Type} (ops : EngineOps E V) (C : Coupling E) (e e' : E) : Prop where
  plain : ∀ c, C.plain e' c = C.plain e c
  parted : ∀ c, C.parted e' c ↔ C.parted e c
  waits : ∀ c, C.waits e c → C.waits e' c
  buffered : ops.buffered e' ≤ ops.buffered e

/-- Engines that understand each other go on to do so: what the one encrypts, the other decrypts. -/
structure Couples {E V : Type} (ops : EngineOps E V) (C : Coupling E) : Prop where
  symm : ∀ {e f : E} {s t : Bytes}, C.joined e f s t → C.joined f e t s
  wantsWrite : ∀ e, ops.wantsWrite e = true ↔ C.out e ≠ []
  /-- What has come in and makes no whole record is shorter than a record, and more of it is on its way. -/
  waits : ∀ {e f : E} {s c x : Bytes}, C.joined e f s (c ++ x) → C.waits e c →
    ops.buffered e = 0 ∧ c.length < C.largest ∧ (x = [] → c = [] ∧ C.plain e [] = [])
  encrypt : ∀ {e f : E} {s t data : Bytes}, C.joined e f s t → ¬ C.parted f s → C.out e = [] → data ≠ [] →
    ∃ e', ops.encrypt e data = (e', .ok data.length) ∧ C.Same ops e e' ∧ C.joined e' f (s ++ C.out e') t ∧
      C.plain f (s ++ C.out e') = C.plain f s ++ data ∧ ¬ C.parted f (s ++ C.out e')
  flush : ∀ {e e' f : E} {s c x c' : Bytes} {ps : List Push} {r : Except Fault Bool}, C.joined e f s (c ++ x) →
    Works (ops.flush e) c ps c' (e', r) → Taken ps →
    C.Same ops e e' ∧ C.joined e' f s (c ++ x) ∧ c' = c ∧ C.out e = sent ps ++ C.out e' ∧
      (C.out e' ≠ [] → Cramped ps) ∧ ∃ clear, r = .ok clear ∧ (clear = true → C.out e' = [])
  decrypt : ∀ {e e' f : E} {s c x c' : Bytes} {n : Nat} {ps : List Push} {r : Except Fault Decrypted},
    C.joined e f s (c ++ x) → 0 < n → Works (ops.decrypt e n) c ps c' (e', r) → Taken ps →
    C.out e = sent ps ++ C.out e' ∧ (C.out e' ≠ [] → ps = [] ∨ Cramped ps) ∧
      ∃ y, r = .ok y ∧ y.bytes.length + ops.buffered e' + c'.length ≤ ops.buffered e + c.length ∧
        C.plain e (c ++ x) = y.bytes ++ C.plain e' (c' ++ x) ∧ (C.parted e' (c' ++ x) ↔ C.parted e (c ++ x)) ∧
        C.joined e' f s (c' ++ x) ∧
        match y with
        | .data text => text ≠ []
        | .wouldBlock => C.waits e' c'
        | .peerClosed => C.parted e (c ++ x) ∧ C.plain e (c ++ x) = [] ∧ ops.buffered e' = 0

end Conduit.Tls
