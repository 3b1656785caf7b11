import Conduit.Tls.Trust.Distrust

/-!
# Paths of trust

Whether a server's certificates are accepted: a path must lead from one that is trusted to that of the server, each one
signed with the key of the one before. All paths are tried until one is good; how much is tried is bounded.

* `Path.seek`: the search for a path.
* `accept`: the server's certificate, or why it is not accepted.
-/

namespace Conduit.Tls.Trust

/-- How much may still be tried. -/
structure Budget where
  signatures : Nat := 100
  steps : Nat := 200000
  comparisons : Nat := 250000
  deriving Repr

/-- A search that may fail, and uses up what may be tried. -/
abbrev Search := ExceptT Distrust (StateM Budget)

namespace Search

/-- Fails for a reason with a name. -/
def refuse {α : Type} (r : Refusal) : Search α := throw (.ofRefusal r)

/-- Fails if bytes cannot be read. -/
def ofReading {α : Type} : Except Der.Fault α → Search α
  | .ok a => pure a
  | .error f => throw (.unreadable f)

/-- Reads the front of bytes and checks what was read; then nothing may be left. -/
def checkReading {α : Type} (b : Bytes) (r : Der.Reading α) (check : α → Search Unit) : Search Unit := do
  let (a, left) ← ofReading (r.run b)
  check a
  if !left.isEmpty then throw (.unreadable .malformed)

/-- Uses up one of what may be tried. -/
def spend (left : Budget → Nat) (set : Budget → Nat → Budget) (r : Refusal) : Search Unit := do
  match left (← get) with
  | 0 => refuse r
  | n + 1 => modify fun b => set b n

/-- The first of some attempts that succeeds. If none does, the reason that says most is told; some reasons end it. -/
def first {α β : Type} (attempt : α → Search β) (d : Distrust) : List α → Search β
  | [] => throw d
  | a :: rest => do
    match ← ExceptT.lift (attempt a).run with
    | .ok b => pure b
    | .error e => if e.isFinal then throw e else first attempt (d.stronger e) rest

end Search

/-- Whether a signature is right in one of some ways: those that do not go with the key are passed over. `otherwise` is
the reason if none goes with it. -/
def checkWays (key : Bytes) (isRight : Algorithm → Bytes → Bool) (otherwise : Distrust) :
    List Algorithm → Except Distrust Unit
  | [] => .error otherwise
  | a :: rest =>
    match PublicKey.ofBytes key with
    | .error f => .error (.unreadable f)
    | .ok k =>
      if k.id ≠ a.kind.id then checkWays key isRight (.mismatch a k) rest
      else if isRight a k.bits then .ok ()
      else .error .badSignature

namespace Path

open Search

/-! ## One certificate -/

/-- A certificate must be in its place: that of a server, or that of an authority with as many others below it on the way
to the server. -/
def checkPlace (below : Option Nat) (isAuthority : Bool) (most : Option Nat) : Search Unit := do
  match below with
  | none => if isAuthority then refuse .authorityAsServer
  | some n =>
    if !isAuthority then refuse .serverAsAuthority
    else if most.any (· < n) then refuse .longPath

/-- What speaks against a certificate by itself, in its place. -/
def checkAlone (c : Certificate) (below : Option Nat) : Search Unit := do
  checkReading c.validity Certificate.readPeriod fun (start, stop) => do
    if stop < start then throw .expired
  let about := (c.extension? Certificate.constraints).getD []
  checkReading about Certificate.readAuthority fun (isAuthority, most) => checkPlace below isAuthority most
  match ← ofReading c.otherPurposes? with
  | some purposes => throw (.wrongPurpose purposes)
  | none => pure ()

/-- A certificate must be signed with a key. -/
def checkSigned (key : Bytes) (c : Certificate) : Search Unit := do
  spend (·.signatures) (fun b n => { b with signatures := n }) .tooManySignatures
  let ways := Algorithm.all.filter (·.id == c.scheme)
  match checkWays key (fun a bits => a.verify bits c.signed c.signature) (.unknownScheme c.scheme) ways with
  | .ok () => pure ()
  | .error d => throw d

/-- Each certificate of a path must be signed with the key of the one before it, the first one with a given key. -/
def checkAllSigned (key : Bytes) : (path : List Certificate) → Search Unit
  | [] => pure ()
  | c :: rest => do
    checkSigned key c
    checkAllSigned c.publicKey rest

/-! ## What authorities may name -/

/-- Whether a domain lies within one that an authority may name. With a dot in front, only what is below it does. A domain
whose first label is left open may lie within one that is as long: that is so of what an authority may not name. -/
def domainWithin (isExcluded : Bool) (name base : Bytes) : Search Bool := do
  let (n, b) := (lowered name, lowered base)
  if !isPresented n then refuse .malformedDomain
  else if !isDomainBase b then refuse .malformedConstraint
  else if b.isEmpty then pure true
  else if b.length < n.length then pure ((if b.head? = some '.' then b else '.' :: b).isSuffixOf n)
  else
    match n with
    | '*' :: rest => pure (isExcluded && (b.drop 1).dropWhile (· ≠ '.') == rest)
    | _ => pure (n == b)

/-- Whether the first bits of a byte are set, and no others. -/
def isMaskByte (m : UInt8) : Bool := ([0, 128, 192, 224, 240, 248, 252, 254, 255] : List UInt8).contains m

/-- Whether bytes are those of an address in the places that a mask keeps. The mask is looked at as far as they are the
same: its set bits come first. `isOpen` is whether a bit before was not set. -/
def maskedEqual (isOpen : Bool) : (name base mask : Bytes) → Search Bool
  | x :: name, y :: base, m :: mask => do
    if !isMaskByte m || isOpen && m ≠ 0 then refuse .mask
    else if (x ^^^ y) &&& m ≠ 0 then pure false
    else maskedEqual (isOpen || m ≠ 0xFF) name base mask
  | _, _, _ => pure true

/-- Whether an address lies within those that an authority may name. -/
def addressWithin (name base : Bytes) : Search Bool := do
  let sizes := (name.length, base.length)
  if sizes = (4, 32) || sizes = (16, 8) then pure false
  else if name.length ≠ 4 && name.length ≠ 16 then throw (.unreadable .malformed)
  else if base.length ≠ 2 * name.length then refuse .mask
  else maskedEqual false name (base.take name.length) (base.drop name.length)

/-- Whether a name lies within those of one entry; nothing, if they are of different kinds. -/
def nameWithin (isExcluded : Bool) (name base : GeneralName) : Search (Option Bool) := do
  match name, base with
  | .domain n, .domain b => pure (some (← domainWithin isExcluded n b))
  | .address n, .address b => pure (some (← addressWithin n b))
  | .directory, .directory => pure (some isExcluded)
  | .resource _, .resource _ => refuse .nameOutside
  | .other n, .other b => if n = b then refuse .nameOutside else pure none
  | _, _ => pure none

/-- Compares a name with the entries in bytes, at most `k`: whether it lies within some of them, and outside of some. -/
def compareFrom (isExcluded : Bool) (name : GeneralName) : (k : Nat) → Bytes → (within outside : Bool) →
    Search (Bool × Bool)
  | 0, _, within, outside => pure (within, outside)
  | k + 1, b, within, outside => do
    if b.isEmpty then pure (within, outside)
    else
      spend (·.comparisons) (fun x n => { x with comparisons := n }) .tooManyComparisons
      match (Der.Reading.within .malformed Der.Tag.sequence GeneralName.read).run b with
      | .error f => throw (.unreadable f)
      | .ok (base, left) =>
        match ← nameWithin isExcluded name base with
        | none => compareFrom isExcluded name k left within outside
        | some true =>
          if isExcluded then refuse .nameOutside else compareFrom isExcluded name k left true outside
        | some false => compareFrom isExcluded name k left within true

/-- A name must lie within what may be named, and outside of what may not. -/
def checkName (allowed excluded : Option Bytes) (name : GeneralName) : Search Unit := do
  match allowed with
  | none => pure ()
  | some b =>
    let (within, outside) ← compareFrom false name b.length b false false
    if outside && !within then refuse .nameOutside
  match excluded with
  | none => pure ()
  | some b =>
    let _ ← compareFrom true name b.length b false false

/-- Reads what may be named, and what may not. -/
def readConstraints : Der.Reading (Option Bytes × Option Bytes) := do
  let part (tag : UInt8) : Der.Reading (Option Bytes) := do
    if ← Der.Reading.isNext tag then pure (some (← Der.Reading.value tag)) else pure none
  let allowed ← part Der.Tag.part0
  pure (allowed, ← part Der.Tag.part1)

/-- Names of certificates must lie within what may be named. -/
def checkNames (allowed excluded : Option Bytes) : (names : List (Except Der.Fault GeneralName)) → Search Unit
  | [] => pure ()
  | name :: rest => do
    checkName allowed excluded (← ofReading name)
    checkNames allowed excluded rest

/-- What was said about a path's names must hold of all certificates of the path. -/
def checkConstraint (constraint : Option Bytes) (path : List Certificate) : Search Unit := do
  match constraint with
  | none => pure ()
  | some b =>
    checkReading b readConstraints fun (allowed, excluded) =>
      checkNames allowed excluded (path.flatMap fun c => c.allNames ++ [.ok .directory])

/-- What each certificate says about names must hold of those after it. -/
def checkConstraints (constraint : Option Bytes) : (path : List Certificate) → Search Unit
  | [] => pure ()
  | c :: rest => do
    checkConstraint constraint (c :: rest)
    checkConstraints (c.extension? Certificate.nameConstraints) rest

/-! ## The search -/

/-- A path must begin at an anchor. -/
def reach (path : List Certificate) (a : Anchor) : Search Unit := do
  if (path.head?.map (·.issuer)) ≠ some a.subject then throw .unknownIssuer
  checkAllSigned a.publicKey path
  checkConstraints a.nameConstraints path

/-- Whether a certificate has the name and the key of one of a path. -/
def repeats (c : Certificate) (path : List Certificate) : Bool :=
  path.any fun x => x.publicKey == c.publicKey && x.subject == c.subject

/-- Tries a path, then the paths with one more certificate in front by `deeper`. -/
def tryPath (anchors : List Anchor) (others : List (Except Der.Fault Certificate)) (below : Option Nat)
    (path : List Certificate) (deeper : (below : Option Nat) → List Certificate → Search Unit) : Search Unit := do
  match path with
  | [] => throw .unknownIssuer
  | head :: _ =>
    checkAlone head below
    let direct ← ExceptT.lift (first (reach path) .unknownIssuer anchors).run
    match direct with
    | .ok () => pure ()
    | .error d =>
      if d.isFinal then throw d
      else
        first (fun other => do
          let c ← ofReading other
          if c.subject ≠ head.issuer || repeats c path then throw .unknownIssuer
          spend (·.steps) (fun b n => { b with steps := n }) .tooManySteps
          deeper (some ((below.map (· + 1)).getD 0)) (c :: path)) d others

/-- Seeks a way from an anchor to the first certificate of a path, over at most `room` others. -/
def seek (anchors : List Anchor) (others : List (Except Der.Fault Certificate)) :
    (room : Nat) → (below : Option Nat) → (path : List Certificate) → Search Unit
  | 0, below, path => tryPath anchors others below path fun _ _ => refuse .tooDeep
  | room + 1, below, path => tryPath anchors others below path (seek anchors others room)

/-- The most authorities between an anchor and a server. -/
def maxAuthorities : Nat := 6

end Path

/-- The certificate of a server that a client asks for by a name, from the certificates that the server sends. -/
def accept (anchors : List Anchor) (name : ServerName) : (chain : List Bytes) → Except Distrust Certificate
  | [] => .error .noCertificate
  | der :: others => do
    let c ← (Certificate.ofBytes der).mapError .unreadable
    ((Path.seek anchors (others.map Certificate.ofBytes) Path.maxAuthorities none [c]).run.run {}).1
    if ← (covers name c.allNames).mapError .unreadable then .ok c
    else .error (.wrongName name (c.allNames.filterMap fun n => n.toOption.map GeneralName.text))

end Conduit.Tls.Trust
