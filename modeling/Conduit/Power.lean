/-!
# Powers of numbers

A power of numbers is meant as the core library has it, also where powers in monoids are known.
-/

namespace Conduit

@[default_instance 20000]
instance (priority := 20000) powOfNatPow {α : Type} [NatPow α] : Pow α Nat := instPowNat

end Conduit
