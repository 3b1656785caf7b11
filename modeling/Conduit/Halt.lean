import Conduit.Power

/-!
# Halts

Why a whole run ends without an answer. Nothing goes on after a halt, unlike after a `Fault`, which is an answer.
-/

namespace Conduit

/-- Why a run cannot go on. -/
inductive Halt
  /-- A counter left the range of machine words. -/
  | overflow
  /-- A port was asked for, and every ephemeral one is listening. -/
  | noFreePort
  /-- The run was longer than allowed. -/
  | outOfFuel
  deriving DecidableEq, Repr

/-- Machine words are below this. -/
def wordBound : Nat := 2 ^ 64

end Conduit
