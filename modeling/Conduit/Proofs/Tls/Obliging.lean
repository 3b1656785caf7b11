import Conduit.Proofs.Tls.Life
import Conduit.Proofs.Tls.Toy

/-!
# Obliging surroundings

A TLS layer over toy engines, in surroundings where every request succeeds: lives of it can be computed. So can lives in
surroundings that change.
-/

namespace Conduit.Tls.Toy

/-- An application that brings nothing along but toy engines. -/
@[reducible] def host : Host where
  Memory := Unit
  Code := Unit
  Layer := Unit
  Pcb := Unit
  Engine := Engine
  Shared := Unit
  Source := Profile

/-- The connection below. -/
def below : Handle := ⟨0, 0⟩

/-- Every operation on the connection below succeeds, and there is always room for 1024 bytes. -/
def obligingOp : (o : Op) → o.Reply
  | .lower _ | .bind _ | .connect _ | .listen _ | .close | .shutdown _ | .write _ _ | .output => .ok ()
  | .setPoll _ | .recved _ | .abort | .setNagle _ | .setPrio _ => ()
  | .mss | .sndbuf => 1024
  | .sndqueuelen => 0
  | .nagleDisabled => false
  | .localAddr | .remoteAddr => none
  | .tcpState => .established

/-- Every operation on an endpoint succeeds. -/
def obligingPcb : (o : PcbOp) → o.Reply
  | .bind _ | .connect _ | .listen _ | .write _ _ | .output | .close | .shutdown _ => .ok ()
  | .recved _ | .abort | .setNagle _ | .setPrio _ | .setPollInterval _ | .attach _ | .detach => ()
  | .mss | .sndbuf => 1024
  | .sndqueuelen => 0
  | .nagleDisabled => false
  | .localAddr | .remoteAddr => none
  | .state => .established

/-- Every request of a layer succeeds. -/
def obliging : (r : Layer.Req host) → r.Ans
  | .inner => some below
  | .ask _ o => obligingOp o
  | .pcb _ o => obligingPcb o
  | .emit _ | .release | .fail _ | .note _ | .setShared _ | .shared => ()
  | .pollInterval => 0
  | .cover inner _ => .ok inner
  | .newEngine config name => start config.source name

/-- The engine of a client whose handshake is over when one record has arrived. -/
def young : Engine where
  profile := { isServer := false, reply := [1] }
  out := letters 'h' 20

/-- A client at its beginning. -/
def client : Layer Profile Engine where
  config := { isServer := false, options := {}, source := young.profile }
  session := some (.ofEngine young)

/-- The handle of the client. -/
def me : Handle := ⟨1, 0⟩

/-- The client shakes hands and gets two bytes of plaintext. They are refused, offered again, and taken; one of them is
acknowledged. -/
def exchange : List Method :=
  [.op (.lower (.recv (letters 's' 1))),
    .op (.lower (.recv (record 0x17 ([104, 105] ++ List.replicate 8 0xAA)))),
    .settled (.error .wouldBlock),
    .op (.lower .poll),
    .settled (.ok ()),
    .op (.recved 1)]

/-- The same, and then the peer says that no more will come. -/
def farewell : List Method := exchange ++ [.op (.lower (.recv (record 0x15 [1, 0])))]

/-- The calls of a client. -/
def calls (ms : List Method) : List (Call host) := (played (ops (V := Unit)) me obliging ms client).1

/-- A client after its calls. -/
def left (ms : List Method) : Layer Profile Engine := (played (H := host) (ops (V := Unit)) me obliging ms client).2

theorem life (ms : List Method) (hf : ∀ c ∈ calls ms, frees c.trace = false) :
    Life (H := host) (ops (V := Unit)) below me client (calls ms) (left ms) :=
  List.nil_append (calls ms) ▸ Life.of_played rfl .start (by simp) hf

/-! ## Surroundings that change -/

/-- Every request of a layer succeeds, but the connection below has no room. -/
def full : (r : Layer.Req host) → r.Ans
  | .ask _ .sndbuf => (0 : Nat)
  | r => obliging r

/-- A server at its beginning, which sends tickets of these sizes when the handshake is done. -/
def server (tickets : List Nat) : Layer Profile Engine where
  config := { isServer := true, options := {}, source := { isServer := true, tickets } }
  session := some (.ofEngine { profile := { isServer := true, tickets } })

/-- The calls of a layer in surroundings that change, and what they leave of it. -/
def staged : List (((r : Layer.Req host) → r.Ans) × List Method) → Layer Profile Engine →
    List (Call host) × Layer Profile Engine
  | [], l => ([], l)
  | (answer, ms) :: rest, l =>
    let (h, l₁) := played (ops (V := Unit)) me answer ms l
    let (h', l') := staged rest l₁
    (h ++ h', l')

theorem staged_append {l₀ l : Layer Profile Engine} {stages : List (((r : Layer.Req host) → r.Ans) × List Method)}
    {h : List (Call host)} (hl : Life (ops (V := Unit)) below me l₀ h l) (hh : ∀ c ∈ h, frees c.trace = false)
    (hb : ∀ p ∈ stages, p.1 .inner = some below) (hf : ∀ c ∈ (staged stages l).1, frees c.trace = false) :
    Life (ops (V := Unit)) below me l₀ (h ++ (staged stages l).1) (staged stages l).2 := by
  induction stages generalizing h l with
  | nil =>
    rw [staged, List.append_nil]
    exact hl
  | cons p rest ih =>
    obtain ⟨answer, ms⟩ := p
    rw [staged, List.forall_mem_append] at hf
    have hfirst := hl.of_played (hb _ List.mem_cons_self) hh hf.1
    rw [staged, ← List.append_assoc]
    refine ih hfirst (List.forall_mem_append.2 ⟨hh, hf.1⟩) (fun q hq => hb q (List.mem_cons_of_mem _ hq)) hf.2

theorem staged_life (stages : List (((r : Layer.Req host) → r.Ans) × List Method)) (l : Layer Profile Engine)
    (hb : ∀ p ∈ stages, p.1 .inner = some below) (hf : ∀ c ∈ (staged stages l).1, frees c.trace = false) :
    Life (ops (V := Unit)) below me l (staged stages l).1 (staged stages l).2 :=
  List.nil_append (staged stages l).1 ▸ staged_append .start (by simp) hb hf

end Conduit.Tls.Toy
