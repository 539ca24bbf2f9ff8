/-!
# Sources of random orders

Whatever can hand out orders of `0 … n - 1`, one after the other.
-/

namespace Tessera

/-- A state that hands out an order and moves on. -/
class OrderSource (γ : Type) where
  /-- The next order of `0 … n - 1`. -/
  order : Nat → γ → Array Nat × γ

end Tessera
