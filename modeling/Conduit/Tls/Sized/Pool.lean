import Conduit.Tls.Failure
import Conduit.Tls.Options
import Conduit.Tls.Pem
import Conduit.Tls.Sized.Checksum
import Conduit.Tls.Trust.Distrust
import Conduit.Tls.Trust.PrivateKey

/-!
# Profiles and tickets

What the sized engines of one process share: the profiles they are made from, and the tickets by which a session can be
taken up again. Those of the older version alone agree on no protocol and remember no session.

* `Pool.bindings`: a configuration names a profile, and can be made to name another.
* `Pool.issue`, `Pool.redeem`: what a server remembers; `Pool.collect`, `Pool.present`: what a client does.
-/

namespace Conduit.Tls.Sized

open Trust (Anchor Certificate Distrust SigningKey)

/-- What an engine is made from. -/
structure Profile where
  isServer : Bool
  /-- Whether it knows the older version only. -/
  olderOnly : Bool := false
  alpn : List String := []
  /-- How many sessions it remembers. -/
  cache : Nat := 0
  /-- The key of a server. -/
  key : Option SigningKey := none
  /-- The certificates of a server, its own first. -/
  chain : List Bytes := []
  /-- Whom a client trusts. -/
  anchors : List Anchor := []
  deriving Repr

/-- A session that can be taken up again. -/
structure Session where
  /-- The ticket for it. -/
  id : Bytes
  suite : Nat
  /-- The domain that the client asked for. -/
  domain : Option String := none
  deriving DecidableEq, Repr

/-- What the engines of one process share. -/
structure Pool where
  profiles : Array Profile := #[]
  /-- The profile of each configuration. -/
  bindings : Array Nat := #[]
  /-- The sessions that each server remembers, the oldest first. -/
  issued : List (Nat × List Session) := []
  /-- The sessions that each client knows of for each name, the oldest first. -/
  held : List (Nat × List (String × List Session)) := []
  /-- A number that was not used yet. -/
  fresh : Nat := 1

namespace Pool

/-- Adds a configuration; the answer is its number. -/
def add (v : Pool) (p : Profile) : Nat × Pool :=
  (v.bindings.size, { v with profiles := v.profiles.push p, bindings := v.bindings.push v.profiles.size })

/-- Lets one configuration use the profile of another. -/
def rebind (v : Pool) (config source : Nat) : Pool :=
  { v with bindings := v.bindings.modify config fun b => (v.bindings[source]?).getD b }

/-- Bytes that were not used yet. -/
def draw (v : Pool) (size : Nat) : Bytes × Pool :=
  (Checksum.digest size [Checksum.bytes8 (UInt64.ofNat v.fresh)], { v with fresh := v.fresh + 1 })

/-- Keeps a memory of a size in bounds: when it is full, the oldest item goes. -/
def trim {α : Type} (size : Nat) (items : List α) : List α :=
  if size < items.length then items.drop 1 else items

/-- Puts a value in the place of a key. -/
def put {α : Type} (k : Nat) (a : α) (l : List (Nat × α)) : List (Nat × α) := (k, a) :: l.filter (·.1 ≠ k)

/-- A server remembers a session. -/
def issue (v : Pool) (profile size : Nat) (x : Session) : Pool :=
  { v with issued := put profile (trim size (((v.issued.lookup profile).getD []) ++ [x])) v.issued }

/-- A server takes a ticket back: the session, if it is remembered. -/
def redeem (v : Pool) (profile : Nat) (id : Bytes) : Option Session × Pool :=
  let xs := (v.issued.lookup profile).getD []
  match xs.find? (·.id == id) with
  | none => (none, v)
  | some x => (some x, { v with issued := put profile (xs.erase x) v.issued })

/-- How many sessions a client knows of for one name. -/
def perName : Nat := 8

/-- How many names a client of a size remembers at once. -/
def namesFor (size : Nat) : Nat := (size + (perName - 1)) / perName

/-- The names that a client remembers. -/
def names (v : Pool) (profile : Nat) : List (String × List Session) := (v.held.lookup profile).getD []

/-- A client remembers a name; the oldest goes when there are too many. -/
def touch (v : Pool) (profile size : Nat) (name : String) : Pool :=
  let l := v.names profile
  if (l.lookup name).isSome then v else { v with held := put profile (trim (namesFor size) (l ++ [(name, [])])) v.held }

/-- Changes what a client knows of for one name. -/
def onName (v : Pool) (profile : Nat) (name : String) (f : List Session → List Session) : Pool :=
  { v with held := put profile ((v.names profile).map fun (n, xs) => if n = name then (n, f xs) else (n, xs)) v.held }

/-- A client keeps a ticket for a name. -/
def collect (v : Pool) (profile size : Nat) (name : String) (x : Session) : Pool :=
  (v.touch profile size name).onName profile name fun xs => trim perName (xs ++ [x])

/-- A client takes its newest ticket for a name. -/
def present (v : Pool) (profile : Nat) (name : String) : Option Session × Pool :=
  (((v.names profile).lookup name).bind (·.getLast?), v.onName profile name List.dropLast)

end Pool

/-! ## Configurations -/

/-- A certificate that cannot be read. -/
def unreadable {α : Type} (f : Trust.Der.Fault) : Except ConfigFault α :=
  .error (.refused (Distrust.unreadable f).failure.message)

/-- A server's profile from its certificates and its key. Its own certificate must name the key; the others are not
looked at. -/
def serverProfile (cert key : Bytes) (o : Options) (olderOnly : Bool) : Except ConfigFault Profile := do
  let chain ← ((Pem.certificates cert).mapM id).mapError fun f => ConfigFault.pem f.message
  match chain with
  | [] => .error .noCertificates
  | first :: _ =>
    let part ← (Pem.privateKey key).mapError fun f => ConfigFault.pem f.message
    match SigningKey.read? (Pem.kindText part) part.der with
    | none => .error (.refused (Failure.general "failed to parse private key as RSA, ECDSA, or EdDSA").message)
    | some k =>
      match Certificate.ofBytes first with
      | .error f => unreadable f
      | .ok c =>
        if c.publicKey ≠ k.publicKey.write then .error (.refused "keys may not be consistent: KeyMismatch")
        else .ok {
          isServer := true
          olderOnly
          alpn := if olderOnly then [] else o.alpnProtocols
          cache := if olderOnly then 0 else o.sessionCacheEntries
          key := some k
          chain }

/-- What is kept of the certificates that a client is told to trust. -/
def anchorsOf : List (Except Pem.ReadFault Bytes) → Except ConfigFault (List Anchor)
  | [] => .ok []
  | .error f :: _ => .error (.pem f.message)
  | .ok der :: rest =>
    match Anchor.ofBytes der with
    | .error f => unreadable f
    | .ok a => (anchorsOf rest).map (a :: ·)

/-- A client's profile from the certificates that it trusts. One of the older version alone may trust nobody. -/
def clientProfile (ca : Bytes) (o : Options) (olderOnly : Bool) : Except ConfigFault Profile := do
  let anchors ← anchorsOf (Pem.certificates ca)
  if anchors.isEmpty && !olderOnly then .error .noCertificates
  else .ok {
    isServer := false
    olderOnly
    alpn := if olderOnly then [] else o.alpnProtocols
    cache := if olderOnly then 0 else o.sessionCacheEntries
    anchors }

/-- What a configuration is built from. -/
inductive Material
  | server (cert key : Bytes)
  | client (ca : Bytes)
  deriving Repr

/-- Whether it is that of a server. -/
def Material.isServer : Material → Bool
  | .server _ _ => true
  | .client _ => false

/-- A profile from what is given for it. -/
def Material.profile (m : Material) (o : Options) (olderOnly : Bool) : Except ConfigFault Profile :=
  match m with
  | .server cert key => serverProfile cert key o olderOnly
  | .client ca => clientProfile ca o olderOnly

/-- What a profile is made from. -/
structure Recipe where
  material : Material
  options : Options := {}
  /-- Whether the older version alone is wanted. -/
  olderOnly : Bool := false
  deriving Repr

/-- A profile with checked options. Options are checked first, but those of the older version last. -/
def Recipe.build (r : Recipe) : Except ConfigFault Profile :=
  if r.olderOnly then do
    let p ← r.material.profile r.options true
    let _ ← r.options.check
    .ok p
  else do
    let _ ← r.options.check
    r.material.profile r.options false

end Conduit.Tls.Sized
